import OrderedEnv.CommandLine
import OrderedEnv.Host
import OrderedEnv.Json.Printer
import OrderedEnv.Locations
import OrderedEnv.Request.Error
import OrderedEnv.Store.File
import OrderedEnv.Text.WhiteSpace

/-!
# Carrying out requests

Each request reads the store and, if it changes declarations, saves it as its last step but one: the
report of success comes behind. What is left of the store when a request fails is said in
`OrderedEnv.Proofs.Request.Failing`.

A new declaration replaces the one of its variable. Where there are several, `resolvePolicy` settles
whether all of them are replaced: only the person at the terminal can say so.
-/

namespace OrderedEnv

namespace Request

variable {m : Type → Type} [Monad m] [Host m]

/-- A step on a store, as part of a task. -/
def onStore {α : Type} (task : StoreTask) (step : ExceptT StoreError m α) :
    ExceptT RequestError m α := step.adapt (.store task)

/-- A report of success. -/
def succeed (report : String) : ExceptT RequestError m Unit := Host.print ("✓ " ++ report ++ "\n")

/-! ## Making and clearing stores -/

/-- Makes a store without declarations. With `clear`, the file that is there is removed first. -/
def performInit (format : StoreFormat) (path : Path) (clear : Bool) :
    ExceptT RequestError m Unit := do
  if clear then
    if ← Disk.isPresent path then
      if let .error cause ← Disk.remove path then
        throw (.unremovable path cause)
  let _ ← onStore .init (Store.init format path)
  succeed ("Initialized envstore at " ++ path.display)

/-- Takes all declarations out of a store. -/
def performClear (format : StoreFormat) (path : Path) : ExceptT RequestError m Unit := do
  let _ ← onStore .clear (Store.clear format path)
  succeed "Envstore cleared"

/-! ## Adding declarations -/

/-- The value of a new declaration. -/
def resolveValue : ValueOrigin → ExceptT RequestError m String
  | .given value => return value
  | .file path => do
    match ← Disk.readText path with
    | .error cause => throw (.unreadableValue path cause)
    | .ok text => return text
  | .input => do
    match ← Host.pipedInput with
    | none => return ""
    | some bytes =>
      match String.fromUTF8? bytes with
      | none => throw .unreadableInput
      | some text => return text

/-- The question whether all declarations of a variable are to be replaced. -/
def question (count : Nat) (key : String) : String :=
  "? " ++ toString count ++ " declarations exist with key '" ++ key ++
    "'. Replace all or append? [replace/append] "

/-- The meaning of an answer, in letters of either case and with white space around it. -/
def ofAnswer (line : String) : Except RequestError Store.Policy :=
  let answer := Text.asciiLower (Text.trim line)
  if answer = "replace" || answer = "r" then .ok .replace
  else if answer = "append" || answer = "a" then .ok .append
  else .error (.unknownAnswer answer)

/-- Asks whether all declarations of a variable are to be replaced. -/
def askPolicy (count : Nat) (key : String) : ExceptT RequestError m Store.Policy := do
  match ← Host.ask (question count key) with
  | none => throw (.cannotAsk count key)
  | some bytes =>
    match String.fromUTF8? bytes with
    | none => throw .unreadableAnswer
    | some line => ofAnswer line

/-- What becomes of the declarations of a variable that are there. -/
def resolvePolicy (store : Store) (key : String) (append tool : Bool) :
    ExceptT RequestError m Store.Policy := do
  let count := store.count key
  if append then return .append
  else if count ≤ 1 then return .replace
  else if tool then throw (.ambiguous key)
  else askPolicy count key

/-- The report of a declaration that was added. -/
def addedReport (key : String) : Store.Added → String
  | .added => "Added " ++ key
  | .replaced count => "Replaced " ++ key ++ " (" ++ toString count ++ " declaration(s))"
  | .appended _ => "Appended " ++ key

/-- Adds a declaration to a store that is loaded, or made if there is none. -/
def performAdd (format : StoreFormat) (path : Path) (request : AddRequest) (tool : Bool) :
    ExceptT RequestError m Unit := do
  if request.key.isEmpty then throw .missingKey
  let value ← resolveValue request.origin
  let store ← onStore .load (Store.loadOrInit format path)
  let limits ← (Limits.loadOrInit (← Host.environment).limitsPath).adapt .limits
  if let .error cause := Quota.check store.declarations value limits then throw (.tooLarge cause)
  let policy ← resolvePolicy store request.key request.append tool
  let d : Declaration := { key := request.key, value, options := request.options }
  let (done, store) ← onStore .add (store.add d policy)
  onStore .save (store.save format)
  succeed (addedReport request.key done)

/-- Adds a declaration that removes a variable, behind all others. -/
def performUnset (format : StoreFormat) (path : Path) (key : String) :
    ExceptT RequestError m Unit := do
  if key.isEmpty then throw .missingKey
  let store ← onStore .load (Store.loadOrInit format path)
  let (_, store) ← onStore .unset (store.add (.remove key) .append)
  onStore .save (store.save format)
  succeed ("Unset " ++ key)

/-! ## Using stores -/

/-- Evaluates the store at a path over the environment of the tool. -/
def evaluateStore (format : StoreFormat) (path : Path) : ExceptT RequestError m Outcome := do
  let store ← onStore .load (Store.load format path)
  match evaluate store.declarations (.process (← Host.environment)) with
  | .error cause => throw (.evaluation cause)
  | .ok outcome => return outcome

/-- A view as it is printed. -/
def viewText (format : OutputFormat) (view : Environment) : String :=
  match format with
  | .plain => View.plain view
  | .json => Json.objectText (view.toList.map fun (key, value) => (key, Json.encode value)) ++ "\n"

/-- Prints a view of a store. -/
def performPrint (format : StoreFormat) (path : Path) (output : OutputFormat)
    (options : ViewOptions) : ExceptT RequestError m Unit := do
  let store ← onStore .load (Store.load format path)
  match View.render store.declarations options (.process (← Host.environment)) with
  | .error cause => throw (.evaluation cause)
  | .ok view => Host.print (viewText output view)

/-- Prints the statements of a shell that do what the store says. -/
def performScript (format : StoreFormat) (path : Path) (shell : Option Shell) :
    ExceptT RequestError m Unit := do
  let outcome ← evaluateStore format path
  let shell := shell.getD (← Host.environment).shell
  Host.print (shell.script outcome.history)

/-- Runs a program in the environment of a store. -/
def performRun (format : StoreFormat) (path : Path) (program : String) (arguments : List String) :
    ExceptT RequestError m ExitStatus := do
  let outcome ← evaluateStore format path
  match ← Host.launch program arguments (Changes.ofHistory outcome.history) with
  | .error cause => throw (.unlaunchable program cause)
  | .ok status => return status

end Request

/-! ## Invocations -/

namespace Invocation

variable {m : Type → Type} [Monad m] [Host m]

/-- The path of the store, seen from the working directory. -/
def storePath (invocation : Invocation) (workingDirectory : Path) : Path :=
  match invocation.path with
  | none => workingDirectory.storeIn
  | some path => workingDirectory.join path

/-- Carries out a request. All but running a program ends well if it ends without an error. -/
def perform (format : StoreFormat) (invocation : Invocation) :
    ExceptT RequestError m ExitStatus := do
  let path := invocation.storePath (← Host.workingDirectory)
  let done (step : ExceptT RequestError m Unit) : ExceptT RequestError m ExitStatus := do
    step
    return .exited 0
  match invocation.request with
  | .init clear => done (Request.performInit format path clear)
  | .add request => done (Request.performAdd format path request invocation.tool)
  | .unset key => done (Request.performUnset format path key)
  | .clear => done (Request.performClear format path)
  | .print output options => done (Request.performPrint format path output options)
  | .script shell => done (Request.performScript format path shell)
  | .run program arguments => Request.performRun format path program arguments

end Invocation

/-! ## The tool -/

namespace CommandLine

variable {m : Type → Type} [Monad m] [Host m]

/-- What is printed when the version is asked for. -/
def versionText : String := toolName ++ " 0.1.0\n"

/-- The code for a command line that is not understood. -/
def usageCode : Nat := 2

/-- Carries out a command line. The result is the code the tool ends with. -/
def perform (format : StoreFormat) (words : List Word) : m Nat := do
  match read (← Host.environment) words with
  | .rejected => return usageCode
  | .help => return 0
  | .version =>
    Host.print versionText
    return 0
  | .accepted invocation =>
    match ← (invocation.perform format).run with
    | .ok status => return status.code
    | .error error =>
      Host.report ("✗ " ++ error.message ++ "\n")
      return 1

end CommandLine

end OrderedEnv
