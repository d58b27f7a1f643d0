/-!
# Errors of files

Why a file or directory could not be reached, read or changed, with the texts of Linux.
-/

namespace OrderedEnv

/-- Why an operation on a file failed. -/
inductive FileError where
  /-- There is nothing of that name. -/
  | notFound
  /-- There is something of that name already. -/
  | alreadyExists
  /-- A file stands where a directory is needed. -/
  | notDirectory
  /-- A directory stands where a file is needed. -/
  | isDirectory
  /-- The entry may not be used in that way. -/
  | permissionDenied
  /-- The name is one that cannot be moved, such as `..`. -/
  | busy
  /-- A name or the whole path is too long. -/
  | nameTooLong
  /-- The path holds a byte zero, which no path may. -/
  | zeroByte
  /-- The bytes of the file are no text. -/
  | notText
  /-- Any other reason, in the words of the system. -/
  | other (text : String)
  deriving DecidableEq, Repr

/-- The message of an error. -/
def FileError.message : FileError → String
  | .notFound => "No such file or directory (os error 2)"
  | .alreadyExists => "File exists (os error 17)"
  | .notDirectory => "Not a directory (os error 20)"
  | .isDirectory => "Is a directory (os error 21)"
  | .permissionDenied => "Permission denied (os error 13)"
  | .busy => "Device or resource busy (os error 16)"
  | .nameTooLong => "File name too long (os error 36)"
  | .zeroByte => "file name contained an unexpected NUL byte"
  | .notText => "stream did not contain valid UTF-8"
  | .other text => text

end OrderedEnv
