import OrderedEnv.FileSystem
import OrderedEnv.Host
import OrderedEnv.Locations

/-!
# Machines

A machine is everything that the tool can see and change, as one value: files, the environment, what
is typed or piped into it, the programs that can be run, what was written to the two outputs, and
whether somebody can see a question there. With it every operation of the tool is a function from
machines to machines.

A program is looked for along the variable `PATH` of the environment it will get.
-/

namespace OrderedEnv

/-! ## Programs -/

/-- What a program is started with. -/
structure Start where
  arguments : List String
  environment : Environment
  /-- All that it can read from its standard input. -/
  input : ByteArray
  files : FileSystem

/-- What a program leaves behind. -/
structure Finish where
  /-- What it wrote to its standard output. -/
  output : ByteArray
  /-- What it wrote to its output for errors. -/
  errors : String
  status : ExitStatus
  files : FileSystem

/-- A program. -/
abbrev Program := Start → Finish

/-! ## Standard input -/

/-- What the standard input is. -/
inductive StandardInput where
  /-- A pipe that holds some bytes, and nobody writes to it any more. -/
  | pipe (content : ByteArray)
  /-- A terminal, at which some text is typed. -/
  | terminal (typed : List Char)
  /-- Anything else, with nothing to read. -/
  | nothing

namespace StandardInput

/-- The character that a person types to end the input. -/
def endOfInput : Char := '\x04'

/-- One line of what is typed, with its end, and what is typed after it. The end of input ends a line
only where nothing was typed since the last one. -/
def typedLine (fresh : Bool) : List Char → List Char × List Char
  | [] => ([], [])
  | c :: cs =>
    if c = '\n' || c = '\x0d' then (['\n'], cs)
    else if c = endOfInput then
      if fresh then ([], cs) else typedLine true cs
    else
      let (line, rest) := typedLine false cs
      (c :: line, rest)

/-- All that a program can read. -/
def readAll : StandardInput → ByteArray
  | .pipe content => content
  | .terminal typed => (String.ofList (typed.takeWhile (· ≠ endOfInput))).toUTF8
  | .nothing => .empty

end StandardInput

/-! ## Machines -/

/-- Everything that the tool can see and change. -/
structure Machine where
  files : FileSystem
  environment : ProcessEnvironment
  input : StandardInput
  /-- The program at each place, if there is one. -/
  programs : Location → Option Program
  /-- What was written to the standard output. -/
  output : ByteArray
  /-- What was written to the output for errors. -/
  errors : String
  /-- The output for errors is a terminal. Otherwise it goes elsewhere, and a question is not seen. -/
  errorsTerminal : Bool := true

namespace Machine

/-- The path of a place, from the root. -/
def pathOf (place : Location) : Path :=
  match place.reverse with
  | [] => ⟨[slash]⟩
  | names => ⟨names.flatMap fun name => slash :: name⟩

/-- Something is read from the files. -/
def look {α : Type} (read : FileSystem → α) : StateM Machine α := do
  return read (← get).files

/-- The files are changed, unless that fails. -/
def change (step : FileSystem → Except FileError FileSystem) :
    StateM Machine (Except FileError Unit) := do
  let machine ← get
  match step machine.files with
  | .error error => return .error error
  | .ok files =>
    set { machine with files }
    return .ok ()

instance : Disk (StateM Machine) where
  read path := look fun files => files.read path
  write path content := change fun files => files.write path content
  rename source target := change fun files => files.rename source target
  remove path := change fun files => files.remove path
  makeDirectory path := change fun files => files.makeDirectory path
  isPresent path := look fun files => (files.lookup path).toBool
  isDirectory path := look fun files =>
    match files.lookup path with
    | .ok .directory => true
    | _ => false

/-! ## Finding programs -/

/-- The program a path leads to. Other files cannot be run. -/
def programAt (machine : Machine) (path : Path) : Except FileError Program := do
  let place ← machine.files.resolve path
  match machine.programs place with
  | some program => if path.endsInSlash then .error .notDirectory else .ok program
  | none =>
    match ← machine.files.lookup path with
    | .file _ => .error .permissionDenied
    | .directory => .error .permissionDenied

/-- Looks for a program in directories, in order. A directory without it is passed over, and so is
one where it cannot be run, but the search then fails for that reason. -/
def searchProgram (machine : Machine) (name : Path) (denied : Bool) (last : FileError) :
    List Path → Except FileError Program
  | [] => .error (if denied then .permissionDenied else last)
  | directory :: rest =>
    match machine.programAt (directory.join name) with
    | .ok program => .ok program
    | .error .permissionDenied => searchProgram machine name true last rest
    | .error .notFound => searchProgram machine name denied .notFound rest
    | .error .notDirectory => searchProgram machine name denied .notDirectory rest
    | .error error => .error error

/-- Where programs are looked for if the environment does not say it. -/
def standardSearch : String := "/bin:/usr/bin"

/-- The directories in which programs are looked for. -/
def searchDirectories (environment : Environment) : List Path :=
  let text := (environment["PATH"]?).getD standardSearch
  (text.toList.splitOn ':').map fun directory => .ofText (String.ofList directory)

/-- The program of a name, or of a path if there is a slash in it. -/
def findProgram (machine : Machine) (environment : Environment) (name : String) :
    Except FileError Program :=
  let path := Path.ofText name
  if path.isEmpty then .error .notFound
  else if path.bytes.contains slash then machine.programAt path
  else if FileSystem.maxName < path.bytes.length then .error .nameTooLong
  else machine.searchProgram path false .notFound (searchDirectories environment)

/-! ## Running programs -/

/-- The part of the environment that is text. -/
def ambient (machine : Machine) : Environment :=
  .ofPairs (machine.environment.filterMap fun entry => (textOf? entry).toOption)

/-- Runs a program. What it writes goes to the outputs of the tool. -/
def launch (program : String) (arguments : List String) (changes : Changes) :
    StateM Machine (Except LaunchError ExitStatus) := do
  let machine ← get
  let environment := changes.overlay machine.ambient
  if environment.holdsZero then return .error .zeroByte
  match machine.findProgram environment program with
  | .error cause => return .error (.program cause)
  | .ok run =>
    let finish := run ⟨arguments, environment, machine.input.readAll, machine.files⟩
    set { machine with
      output := machine.output ++ finish.output
      errors := machine.errors ++ finish.errors
      files := finish.files }
    return .ok finish.status

instance : Host (StateM Machine) where
  environment := return (← get).environment
  workingDirectory := return pathOf (← get).files.workingDirectory
  print text := modify fun machine => { machine with output := machine.output ++ text.toUTF8 }
  report text := modify fun machine => { machine with errors := machine.errors ++ text }
  pipedInput := do
    let machine ← get
    match machine.input with
    | .pipe content =>
      if content.isEmpty then return none
      set { machine with input := .pipe .empty }
      return some content
    | _ => return none
  ask question := do
    let machine ← get
    match machine.input, machine.errorsTerminal with
    | .terminal typed, true =>
      let (line, rest) := StandardInput.typedLine true typed
      set { machine with errors := machine.errors ++ question, input := .terminal rest }
      return some (String.ofList line).toUTF8
    | _, _ => return none
  launch := launch

end Machine

end OrderedEnv
