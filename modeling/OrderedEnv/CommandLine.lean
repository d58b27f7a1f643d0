import OrderedEnv.CommandLine.Scan
import OrderedEnv.Environment

/-!
# The command line

A command line is options, the name of a request, and the options of that request. The options that
belong to every request may stand on both sides of its name, and count behind it where they stand on
both. In place of an option that is not given, a variable of the environment is looked at.

`CommandLine.read` reads a command line and says what is asked for.
-/

namespace OrderedEnv

/-- What a command line asks for. -/
inductive Reading where
  /-- It is not understood. -/
  | rejected
  | help
  | version
  | accepted (invocation : Invocation)
  deriving DecidableEq, Repr

namespace CommandLine

/-- The settings of every request. -/
def commonSettings : List Setting := [.logLevel, .path, .tool]

/-- The options in front of the name of a request. -/
def outerLevel : Level := ⟨commonSettings ++ [.help, .version], false⟩

/-- The options behind the name of a request. Only what runs a program takes other words. -/
def innerLevel (subcommand : Subcommand) : Level :=
  ⟨subcommand.settings ++ commonSettings ++ [.help], subcommand = .run⟩

/-! ## Variables in place of options -/

/-- The value of the variable of a setting. -/
def variableWord? (environment : ProcessEnvironment) (setting : Setting) : Option Word :=
  setting.variableName?.bind fun name =>
    (environment.find? fun entry => entry.1 = name.toUTF8).map fun entry => entry.2.data.toList

/-- The variables that are looked at hold values which their settings can have. -/
def variablesAccepted (environment : ProcessEnvironment) (given : Given) : Bool :=
  commonSettings.all fun setting =>
    (given.lookup setting).isSome ||
      ((variableWord? environment setting).map setting.accepts).getD true

/-! ## Requests -/

/-- What is given on the two sides of the name of a request, and in the environment. -/
structure Found where
  inner : Given
  outer : Given
  environment : ProcessEnvironment

namespace Found

/-- A flag is given. -/
def has (found : Found) (setting : Setting) : Bool := (found.inner.lookup setting).isSome

/-- The value of a setting of one request. -/
def word? (found : Found) (setting : Setting) : Option Word := found.inner.lookup setting

/-- The text of a setting of one request. -/
def text? (found : Found) (setting : Setting) : Option String :=
  (found.word? setting).bind Word.text?

/-- The path of the store. -/
def path? (found : Found) : Option Path :=
  let words := [found.inner.lookup .path, found.outer.lookup .path,
    variableWord? found.environment .path]
  (words.findSome? id).map Path.mk

/-- No question is asked. -/
def tool (found : Found) : Bool :=
  (found.inner.lookup .tool).isSome || (found.outer.lookup .tool).isSome ||
    ((variableWord? found.environment .tool).bind Setting.flag?).getD false

/-- Where the value of a new declaration comes from. It may be given in one way only. -/
def origin? (found : Found) : Option ValueOrigin :=
  match found.text? .value, found.word? .valueFile with
  | some _, some _ => none
  | some value, none => some (.given value)
  | none, some path => some (.file ⟨path⟩)
  | none, none => some .input

/-- What is to be added. -/
def addRequest? (found : Found) : Option AddRequest := do
  return {
    key := ← found.text? .key
    origin := ← found.origin?
    options := {
      expand := !found.has .noExpand
      skipIfEmpty := found.has .skipIfEmpty
      sensitive := found.has .sensitive }
    append := found.has .append }

/-- The view that is to be printed. -/
def viewOptions (found : Found) : ViewOptions :=
  ⟨found.has .expand, found.has .sensitiveOnly, found.has .redact⟩

/-- The request that is asked for with the words behind the options. -/
def request? (found : Found) (words : List Word) : Subcommand → Option Request
  | .run => do
    match ← words.mapM Word.text? with
    | [] => none
    | program :: arguments => return .run program arguments
  | subcommand =>
    if !words.isEmpty then none
    else
      match subcommand with
      | .init => some (.init (found.has .clear))
      | .add => found.addRequest?.map .add
      | .unset => (found.text? .key).map .unset
      | .clear => some .clear
      | .print =>
        some (.print (((found.word? .format).bind Setting.format?).getD .plain) found.viewOptions)
      | .script => some (.script ((found.word? .shell).bind Setting.shell?))
      | .run => none

end Found

/-! ## Reading -/

/-- Reads what follows the name of a request. -/
def readInner (environment : ProcessEnvironment) (outer : Given) (subcommand : Subcommand)
    (words : List Word) : Reading :=
  match (innerLevel subcommand).scan words with
  | .rejected => .rejected
  | .help => .help
  | .version => .version
  | .stopped inner _ rest =>
    let found : Found := ⟨inner, outer, environment⟩
    match found.request? rest subcommand with
    | none => .rejected
    | some request =>
      if variablesAccepted environment inner && variablesAccepted environment outer then
        .accepted ⟨found.path?, found.tool, request⟩
      else .rejected

/-- The words ask for help on a request, or on all. -/
def asksForHelp : List Word → Bool
  | [] => false
  | word :: rest =>
    word = Word.ofText "help" &&
      match rest with
      | [] => true
      | [name] => (Subcommand.ofWord? name).isSome || name = Word.ofText "help"
      | _ => false

/-- Reads a command line, without the name of the tool. -/
def read (environment : ProcessEnvironment) (words : List Word) : Reading :=
  match outerLevel.scan words with
  | .rejected => .rejected
  | .help => .help
  | .version => .version
  | .stopped outer escaped rest =>
    if escaped then .rejected
    else if asksForHelp rest then .help
    else
      match rest with
      | [] => .rejected
      | name :: inner =>
        match Subcommand.ofWord? name with
        | none => .rejected
        | some subcommand => readInner environment outer subcommand inner

end CommandLine

end OrderedEnv
