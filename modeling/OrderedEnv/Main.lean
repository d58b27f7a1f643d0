import OrderedEnv.Request.Perform

/-!
# The command

The tool on the files of the machine it runs on. Everything it decides is decided elsewhere: here
bytes are read and written, and nothing more.

This host starts no programs, so a request to run one ends in an error.
-/

namespace OrderedEnv

/-- The error of a code of the system, in its own words if the code is none that is known. -/
def FileError.ofCode (code : UInt32) (text : String) : FileError :=
  match code.toNat with
  | 2 => .notFound
  | 13 => .permissionDenied
  | 16 => .busy
  | 17 => .alreadyExists
  | 20 => .notDirectory
  | 21 => .isDirectory
  | 36 => .nameTooLong
  | _ => .other text

/-- The error that the system reports. -/
def FileError.ofSystem (error : IO.Error) : FileError :=
  match error with
  | .noFileOrDirectory _ _ _ => .notFound
  | .alreadyExists _ code _ | .inappropriateType _ code _ | .permissionDenied _ code _
  | .invalidArgument _ code _ | .resourceExhausted _ code _ | .noSuchThing _ code _ =>
    .ofCode code (toString error)
  | .resourceBusy code _ | .otherError code _ => .ofCode code (toString error)
  | _ => .other (toString error)

namespace Main

/-- The outcome of a step that the system may refuse. -/
def attempt {α : Type} (step : IO α) : IO (Except FileError α) :=
  try
    return .ok (← step)
  catch error => return .error (.ofSystem error)

instance : Disk IO where
  read path := attempt (IO.FS.readBinFile path.display)
  write path content := attempt (IO.FS.writeBinFile path.display content)
  rename source target := attempt (IO.FS.rename source.display target.display)
  remove path := attempt (IO.FS.removeFile path.display)
  makeDirectory path := attempt (IO.FS.createDir path.display)
  isPresent path := do ((← IO.currentDir) / path.display).pathExists
  isDirectory path := do ((← IO.currentDir) / path.display).isDir

/-- One entry of the environment. A name is never empty, so a sign at its start belongs to it. -/
def environmentOf (entry : List UInt8) : Option (ByteArray × ByteArray) :=
  match entry with
  | [] => none
  | b :: bs =>
    let name := b :: bs.takeWhile (· ≠ equals)
    match bs.dropWhile (· ≠ equals) with
    | [] => none
    | _ :: value => some (⟨name.toArray⟩, ⟨value.toArray⟩)

/-- The environment of this process. -/
def readEnvironment : IO ProcessEnvironment := do
  let bytes ← IO.FS.readBinFile "/proc/self/environ"
  return (bytes.data.toList.splitOn 0).filterMap environmentOf

/-- All bytes on the standard input, if it is neither a file nor a terminal. -/
def readPipe : IO (Option ByteArray) := do
  if ← (← IO.getStdin).isTty then return none
  match (← ((← IO.currentDir) / "/proc/self/fd/0").metadata).type with
  | .other =>
    let bytes ← IO.FS.readBinFile "/dev/stdin"
    return if bytes.isEmpty then none else some bytes
  | _ => return none

/-- A line that is typed at the terminal as the answer to a question. -/
def askTerminal (question : String) : IO (Option ByteArray) := do
  let input ← IO.getStdin
  let errors ← IO.getStderr
  if (← input.isTty) && (← errors.isTty) then
    errors.putStr question
    errors.flush
    return some (← input.getLine).toUTF8
  else return none

instance : Host IO where
  environment := readEnvironment
  workingDirectory := return .ofText (← IO.currentDir).toString
  print text := do (← IO.getStdout).putStr text
  report text := do (← IO.getStderr).putStr text
  pipedInput := readPipe
  ask := askTerminal
  launch _ _ _ := return .error (.program (.other "no programs can be started"))

end Main

end OrderedEnv

/-- Carries out the command line. -/
def main (arguments : List String) : IO UInt32 := do
  let code ← OrderedEnv.CommandLine.perform .yaml (arguments.map OrderedEnv.Word.ofText)
  return code.toUInt32
