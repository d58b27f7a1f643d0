import OrderedEnv.Evaluation
import OrderedEnv.Limits.File
import OrderedEnv.Process
import OrderedEnv.Store.Error

/-!
# Errors of requests

Why a request could not be carried out. What is reported is the whole chain that led to the failure,
from the task that was under way to the last cause, joined by colons. As the message of an error
names its cause already, a cause can be read twice in a report.
-/

namespace OrderedEnv

/-- What was being done with a store. -/
inductive StoreTask where
  | init
  | clear
  | load
  | add
  | unset
  | save
  deriving DecidableEq, Repr

/-- The report of a task that failed. -/
def StoreTask.failure : StoreTask → String
  | .init => "Failed to initialize envstore"
  | .clear => "Failed to clear envstore"
  | .load => "Failed to load envstore"
  | .add => "Failed to add env"
  | .unset => "Failed to add unset declaration"
  | .save => "Failed to save envstore"

/-- Why a request could not be carried out. -/
inductive RequestError where
  /-- The variable has no name. -/
  | missingKey
  /-- The file of the value could not be read. -/
  | unreadableValue (path : Path) (cause : FileError)
  /-- What came from the pipe is no text. -/
  | unreadableInput
  /-- The variable is declared more than once, and no question may be asked. -/
  | ambiguous (key : String)
  /-- The variable is declared more than once, and there is nobody to ask. -/
  | cannotAsk (count : Nat) (key : String)
  /-- The answer is no text. -/
  | unreadableAnswer
  /-- The answer is none of those that were offered. -/
  | unknownAnswer (answer : String)
  /-- The file of the store could not be removed. -/
  | unremovable (path : Path) (cause : FileError)
  /-- Something failed with the store. -/
  | store (task : StoreTask) (cause : StoreError)
  /-- The limits could not be loaded. -/
  | limits (cause : LimitsError)
  /-- The value is too large. -/
  | tooLarge (cause : QuotaError)
  /-- The declarations could not be evaluated. -/
  | evaluation (cause : EvaluationError)
  /-- The program could not be started. -/
  | unlaunchable (program : String) (cause : LaunchError)

/-- The message of what led to an error. -/
def EvaluationError.cause : EvaluationError → String
  | .malformed _ cause => cause.message
  | .lookupUnavailable cause => cause.message

namespace RequestError

/-- The messages of an error and of all that led to it. -/
def chain : RequestError → List String
  | .missingKey => ["Key is not specified, required."]
  | .unreadableValue path cause =>
    ["Failed to read value file " ++ path.display, cause.message]
  | .unreadableInput => ["Failed to read stdin", FileError.notText.message]
  | .ambiguous key =>
    ["More than one declaration exists with key '" ++ key ++
      "'. Use --append or edit the envstore."]
  | .cannotAsk count key =>
    ["Cannot prompt in non-interactive mode. " ++ toString count ++
      " declarations exist with key '" ++ key ++ "', use --append or --tool."]
  | .unreadableAnswer => [FileError.notText.message]
  | .unknownAnswer answer =>
    ["Failed to parse answer: '" ++ answer ++ "', use [replace/append]"]
  | .unremovable path cause => ["Failed to remove " ++ path.display, cause.message]
  | .store task cause => task.failure :: cause.message :: cause.cause?.toList
  | .limits cause => "Failed to load configs" :: cause.message :: cause.cause?.toList
  | .tooLarge cause => [StoreTask.add.failure, cause.message]
  | .evaluation cause => ["Failed to evaluate envstore", cause.message, cause.cause]
  | .unlaunchable program cause => ["Failed to run command '" ++ program ++ "'", cause.message]

/-- The report of an error. -/
def message (error : RequestError) : String := ": ".intercalate error.chain

end RequestError

end OrderedEnv
