import OrderedEnv.Fixtures.Script.Token

/-!
# Shell scripts

A fixture for tests: the tool does not need it, and no theorem is about it.

What a script does that is given to `sh -c`, as far as it shows what environment, arguments and input
a program gets. Its tokens are gone through from left to right.
-/

namespace OrderedEnv.Script

/-- What a script works on. -/
structure State where
  environment : Environment
  /-- The name of the script, which is its parameter zero. -/
  name : String
  arguments : List String
  input : ByteArray
  files : FileSystem
  /-- What was written so far. -/
  output : ByteArray
  /-- What was written so far to the output for errors. -/
  errors : String
  /-- The code of the last command. -/
  status : Nat
  /-- How the script ended, once it has. -/
  ended : Option ExitStatus

/-- The number of the process that runs a script. -/
def processId : String := "4711"

namespace State

/-- The value of a parameter, if it has one. -/
def value? (state : State) (name : String) : Option String :=
  if name = "@" || name = "*" then
    if state.arguments.isEmpty then none else some (" ".intercalate state.arguments)
  else if name = "#" then some (toString state.arguments.length)
  else if name = "?" then some (toString state.status)
  else if name = "$" then some processId
  else
    match name.toNat? with
    | some 0 => some state.name
    | some (n + 1) => state.arguments[n]?
    | none => state.environment[name]?

/-- What is put in the place of a parameter. -/
def substitute (state : State) (name : String) (alternative : Option Alternative) : String :=
  let found := state.value? name
  match alternative with
  | none => found.getD ""
  | some other =>
    let isSet := match found with
      | none => false
      | some value => !(other.emptyIsUnset && value.isEmpty)
    if isSet = other.whenSet then String.ofList other.text
    else if other.whenSet then "" else found.getD ""

/-! ### Fields -/

/-- The fields of a word that are complete, the last one first, and the one that is not. -/
structure Fields where
  complete : List String
  pending : Option String

/-- More text in a field. -/
def Fields.extend (fields : Fields) (text : String) : Fields :=
  { fields with pending := some (fields.pending.getD "" ++ text) }

/-- The field is complete. -/
def Fields.finish (fields : Fields) : Fields :=
  match fields.pending with
  | none => fields
  | some field => ⟨field :: fields.complete, none⟩

/-- Text that is cut into fields at its blanks. -/
def Fields.split (fields : Fields) (text : String) : Fields :=
  text.toList.foldl
    (fun fields c =>
      if c = ' ' || c = '\t' || c = '\n' then fields.finish else fields.extend (String.ofList [c]))
    fields

/-- One part of a word. -/
def expandPart (state : State) (fields : Fields) : Part → Fields
  | .literal text => fields.extend (String.ofList text)
  | .length name => fields.extend (toString ((state.value? name).getD "").length)
  | .parameter "@" true none =>
    match state.arguments with
    | [] => fields
    | first :: rest =>
      rest.foldl (fun fields word => fields.finish.extend word) (fields.extend first)
  | .parameter name true alternative => fields.extend (state.substitute name alternative)
  | .parameter name false alternative => fields.split (state.substitute name alternative)

/-- The fields of a word. -/
def expandWord (state : State) (parts : List Part) : List String :=
  (parts.foldl state.expandPart ⟨[], none⟩).finish.complete.reverse

/-! ### Commands -/

/-- What a program is started with by a command. -/
def start (state : State) (words : List String) : Start :=
  ⟨words, state.environment, state.input, state.files⟩

/-- The state after a command that ran a program. -/
def after (state : State) (finish : Finish) : State :=
  { state with
    output := state.output ++ finish.output
    errors := state.errors ++ finish.errors
    status := finish.status.code
    files := finish.files }

/-- Writes words as the shell itself does, which replaces backslashes in them. -/
def echo : Program := fun start =>
  match start.arguments with
  | "-n" :: words => Utility.finish start (Utility.unescape (Utility.spaced words)) true
  | words => Utility.finish start (Utility.unescape (Utility.spaced words) ++ ['\n']) true

/-- A condition on words holds. -/
def test : List String → Bool
  | ["-z", word] => word.isEmpty
  | ["-n", word] => !word.isEmpty
  | [left, "=", right] => left = right
  | [left, "!=", right] => left ≠ right
  | [word] => !word.isEmpty
  | _ => false

/-- The code that a command not found ends with. -/
def notFoundCode : Nat := 127

/-- Carries out a command. -/
def command (state : State) (name : String) (words : List String) : State :=
  match name with
  | "exit" =>
    let code := ((words.head?.bind String.toNat?).getD state.status) % 256
    { state with ended := some (.exited code) }
  | "kill" =>
    if words.getLast? ≠ some processId then { state with status := 1 }
    else if words.head? = some "-0" then { state with status := 0 }
    else { state with ended := some .killed }
  | ":" => { state with status := 0 }
  | "echo" => state.after (echo (state.start words))
  | "test" => { state with status := if test words then 0 else 1 }
  | "[" => { state with status := if test words.dropLast then 0 else 1 }
  | "unset" =>
    { state with
      environment := words.foldl (fun environment word => environment.erase word) state.environment
      status := 0 }
  | name =>
    match Utility.named.lookup name with
    | none => { state with status := notFoundCode }
    | some program => state.after (program (state.start words))

/-! ### Where the output goes -/

/-- Where something goes that a command writes. -/
inductive Sink where
  | stream (stream : Stream)
  /-- The end of a file. -/
  | file (path : Path)
  | nowhere

/-- Where both outputs of a command go. -/
structure Sinks where
  output : Sink
  errors : Sink

/-- The two outputs of the script itself. -/
def Sinks.own : Sinks := ⟨.stream .output, .stream .errors⟩

/-- An output of a command goes elsewhere. -/
structure Redirect where
  source : Stream
  /-- A file that is there keeps its content. -/
  append : Bool
  target : String

/-- The content of a file, or nothing. -/
def contentOf (files : FileSystem) (path : Path) : ByteArray :=
  (files.read path).toOption.getD .empty

/-- The sink that a redirection names. A file is made or emptied where that is asked for. -/
def openSink (files : FileSystem) (sinks : Sinks) (redirect : Redirect) :
    Except FileError (FileSystem × Sink) :=
  match redirect.target with
  | "&1" => return (files, sinks.output)
  | "&2" => return (files, sinks.errors)
  | "/dev/null" => return (files, .nowhere)
  | target => do
    let path := Path.ofText target
    let kept := if redirect.append then contentOf files path else .empty
    return (← files.write path kept, .file path)

/-- The outputs of a command after its redirections, which count from left to right. -/
def openSinks (files : FileSystem) (redirects : List Redirect) :
    Except FileError (FileSystem × Sinks) :=
  redirects.foldlM
    (fun (files, sinks) redirect => do
      let (files, sink) ← openSink files sinks redirect
      return (files, match redirect.source with
        | .output => { sinks with output := sink }
        | .errors => { sinks with errors := sink }))
    (files, .own)

/-- Something that was written goes where it should. -/
def deliver (state : State) (written : ByteArray) : Sink → State
  | .stream .output => { state with output := state.output ++ written }
  | .stream .errors => { state with errors := state.errors ++ (String.fromUTF8? written).getD "" }
  | .nowhere => state
  | .file path =>
    match state.files.write path (contentOf state.files path ++ written) with
    | .ok files => { state with files }
    | .error _ => { state with status := 1 }

/-- The code of a command whose outputs cannot go where they should. -/
def cannotOpenCode : Nat := 2

/-- A command of some fields whose outputs go where they should. -/
def redirected (state : State) (redirects : List Redirect) (fields : List String) : State :=
  match openSinks state.files redirects with
  | .error _ => { state with status := cannotOpenCode }
  | .ok (files, sinks) =>
    let silent := { state with files, output := .empty, errors := "" }
    let done := match fields with
      | [] => { silent with status := 0 }
      | name :: words => silent.command name words
    { done with output := state.output, errors := state.errors }
      |>.deliver done.output sinks.output
      |>.deliver done.errors.toUTF8 sinks.errors

/-! ### Scripts -/

/-- A command that is being read: how it follows the one before, its words, the last one first, and
where its outputs go. -/
structure Command where
  link : Link
  words : List (List Part)
  redirects : List Redirect

/-- A command of which nothing was read. -/
def Command.fresh (link : Link) : Command := ⟨link, [], []⟩

/-- It is the turn of a command. -/
def due (state : State) : Link → Bool
  | .always | .pipe => true
  | .afterSuccess => state.status = 0
  | .afterFailure => state.status ≠ 0

/-- Carries out a command, unless it is not its turn. What goes into a pipe is the input of the next
command, and the end of a command beside a pipe is not that of the script. -/
def step (state : State) (command : Command) (following : Link) : State :=
  let fields := command.words.reverse.flatMap state.expandWord
  if state.ended.isSome || !state.due command.link then state
  else if fields.isEmpty && command.redirects.isEmpty then state
  else
    let done := state.redirected command.redirects fields
    if following = .pipe then
      { done with
        output := state.output
        input := done.output.extract state.output.size done.output.size
        ended := none }
    else if command.link = .pipe then
      { done with ended := none, status := (done.ended.map ExitStatus.code).getD done.status }
    else done

/-- Carries out the commands of tokens. -/
def run (state : State) (command : Command) : List Token → State
  | [] => state.step command .always
  | .word parts :: rest => run state { command with words := parts :: command.words } rest
  | .redirect source append :: .word parts :: rest =>
    let target := " ".intercalate (state.expandWord parts)
    run state { command with redirects := command.redirects ++ [⟨source, append, target⟩] } rest
  | .redirect _ _ :: rest => run state command rest
  | .next link :: rest => run (state.step command link) (.fresh link) rest

end State

/-- The shell, which runs the script that it is given. It puts the working directory into the
environment. -/
def shell : Program := fun start =>
  let (script, name, arguments) := match start.arguments with
    | "-c" :: script :: name :: arguments => (script, name, arguments)
    | ["-c", script] => (script, "sh", [])
    | _ => ((String.fromUTF8? start.input).getD "", "sh", [])
  let directory := (Machine.pathOf start.files.workingDirectory).display
  let state : State :=
    { environment := start.environment.insert "PWD" directory
      name, arguments, input := start.input, files := start.files
      output := .empty, errors := "", status := 0, ended := none }
  let final := state.run (.fresh .always) (tokens script)
  ⟨final.output, final.errors, final.ended.getD (.exited final.status), final.files⟩

/-- The directories that hold the utilities. -/
def directories : List Location :=
  [["bin"], ["bin", "usr"]].map fun names => names.map fun name => name.toUTF8.data.toList

/-- The utilities and the shell, in the directories where they are looked for. -/
def standardPrograms (place : Location) : Option Program :=
  match place with
  | [] => none
  | name :: directory =>
    if directories.contains directory then
      (("sh", shell) :: Utility.named).lookup ((String.fromUTF8? ⟨name.toArray⟩).getD "")
    else none

end OrderedEnv.Script
