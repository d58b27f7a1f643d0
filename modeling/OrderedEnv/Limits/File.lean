import OrderedEnv.Disk
import OrderedEnv.Limits.Document

/-!
# The file of the limits

Limits are loaded from a file and saved to one. The directories around the file are made when it is
saved.
-/

namespace OrderedEnv

/-- Why limits could not be loaded or saved. -/
inductive LimitsError where
  /-- The file could not be read. -/
  | unreadable (path : Path) (cause : FileError)
  /-- The file holds no document of limits. -/
  | malformed (path : Path)
  /-- The file, or a directory around it, could not be made. -/
  | unwritable (path : Path) (cause : FileError)
  deriving DecidableEq

namespace LimitsError

/-- What is wrong with a document that cannot be read. -/
def malformedText : String := "the document holds no limits"

/-- The message of what led to an error, if anything did. -/
def cause? : LimitsError → Option String
  | .unreadable _ cause => some cause.message
  | .malformed _ => some malformedText
  | .unwritable _ cause => some cause.message

/-- The message of an error. -/
def message : LimitsError → String
  | .unreadable path cause => "failed to read config " ++ path.display ++ ": " ++ cause.message
  | .malformed path => "failed to parse config " ++ path.display ++ ": " ++ malformedText
  | .unwritable path cause => "failed to write config " ++ path.display ++ ": " ++ cause.message

end LimitsError

namespace Limits

variable {m : Type → Type} [Monad m] [Disk m]

/-- Loads limits from a file. -/
def load (path : Path) : ExceptT LimitsError m Limits := do
  match ← Disk.readText path with
  | .error cause => throw (.unreadable path cause)
  | .ok text =>
    match ofJson? text with
    | none => throw (.malformed path)
    | some limits => return limits

/-- Saves limits to a file. -/
def save (limits : Limits) (path : Path) : ExceptT LimitsError m Unit := do
  if let some parent := path.parent? then
    if let .error cause ← Disk.ensureDirectories parent then
      throw (.unwritable parent cause)
  if let .error cause ← Disk.writeText path limits.toJson then
    throw (.unwritable path cause)

/-- Loads limits from a file, or saves the limits of a new configuration if there is no file. -/
def loadOrInit (path : Path) : ExceptT LimitsError m Limits := do
  if ← Disk.isPresent path then load path
  else
    save default path
    return default

end Limits

end OrderedEnv
