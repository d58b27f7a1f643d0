import OrderedEnv.Disk
import OrderedEnv.Environment
import OrderedEnv.Process

/-!
# The host

What the tool asks of the place where it runs, besides files: the environment it was started in, the
two outputs, the person at the terminal, and other programs.
-/

namespace OrderedEnv

/-- What the tool asks of the place where it runs. -/
class Host (m : Type → Type) extends Disk m where
  /-- The environment the tool was started in. -/
  environment : m ProcessEnvironment
  /-- The directory that relative paths start from. -/
  workingDirectory : m Path
  /-- Writes to the standard output. -/
  print : String → m Unit
  /-- Writes to the output for errors. -/
  report : String → m Unit
  /-- All that comes from the pipe on the standard input, if there is a pipe and something waits. -/
  pipedInput : m (Option ByteArray)
  /-- Asks a question on the output for errors and takes one line from the standard input as the
  answer, or none unless both are terminals. -/
  ask : String → m (Option ByteArray)
  /-- Runs a program with arguments, in the environment of the tool with some changes. -/
  launch : String → List String → Changes → m (Except LaunchError ExitStatus)

namespace Host

variable {m : Type → Type} [Monad m] [Host m]

/-- An operation that may fail has the same host. -/
instance {ε : Type} : Host (ExceptT ε m) where
  environment := ExceptT.lift environment
  workingDirectory := ExceptT.lift workingDirectory
  print text := ExceptT.lift (print text)
  report text := ExceptT.lift (report text)
  pipedInput := ExceptT.lift pipedInput
  ask question := ExceptT.lift (ask question)
  launch program arguments changes := ExceptT.lift (launch program arguments changes)

end Host

end OrderedEnv
