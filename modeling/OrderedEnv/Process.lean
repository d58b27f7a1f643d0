import OrderedEnv.FileSystem.Error
import OrderedEnv.History

/-!
# Processes

How a program that was started ended, and why one could not be started.
-/

namespace OrderedEnv

/-- How a program ended. -/
inductive ExitStatus where
  /-- By itself, with a code. -/
  | exited (code : Nat)
  /-- A signal ended it. -/
  | killed
  deriving DecidableEq, Repr

/-- The code that stands for the end of a program. Whatever is no code of eight bits is a failure. -/
def ExitStatus.code : ExitStatus → Nat
  | .exited code => if code < 256 then code else 1
  | .killed => 1

/-- Why a program could not be started. -/
inductive LaunchError where
  /-- A name, a value or an argument holds a byte zero, which the system cannot pass on. -/
  | zeroByte
  /-- There is no such program, or it cannot be run. -/
  | program (cause : FileError)
  deriving DecidableEq, Repr

/-- The message of an error. -/
def LaunchError.message : LaunchError → String
  | .zeroByte => "nul byte found in provided data"
  | .program cause => cause.message

/-- Some name or value holds a character zero. -/
def Environment.holdsZero (environment : Environment) : Bool :=
  environment.any fun name value => name.contains '\x00' || value.contains '\x00'

end OrderedEnv
