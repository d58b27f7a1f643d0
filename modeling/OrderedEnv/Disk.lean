import OrderedEnv.FileSystem.Error
import OrderedEnv.Path

/-!
# Access to files

What the library asks of the place where files are kept. Every operation that works on files is
written for any monad that offers `Disk`, so it runs alike on a file system that is a value and on
the files of the machine.
-/

namespace OrderedEnv

/-- Access to files. -/
class Disk (m : Type → Type) where
  /-- The bytes of a file. -/
  read : Path → m (Except FileError ByteArray)
  /-- Gives a file new content, and makes it if there is none. -/
  write : Path → ByteArray → m (Except FileError Unit)
  /-- Moves a file, over the file that may stand at the second path. -/
  rename : Path → Path → m (Except FileError Unit)
  /-- Removes a file. -/
  remove : Path → m (Except FileError Unit)
  /-- Makes one directory. -/
  makeDirectory : Path → m (Except FileError Unit)
  /-- The path leads to something. -/
  isPresent : Path → m Bool
  /-- The path leads to a directory. -/
  isDirectory : Path → m Bool

namespace Disk

variable {m : Type → Type} [Monad m] [Disk m]

/-- An operation that may fail has the same access. -/
instance {ε : Type} : Disk (ExceptT ε m) where
  read path := ExceptT.lift (read path)
  write path content := ExceptT.lift (write path content)
  rename source target := ExceptT.lift (rename source target)
  remove path := ExceptT.lift (remove path)
  makeDirectory path := ExceptT.lift (makeDirectory path)
  isPresent path := ExceptT.lift (isPresent path)
  isDirectory path := ExceptT.lift (isDirectory path)

/-- The text of bytes that were read. -/
def textOf (found : Except FileError ByteArray) : Except FileError String :=
  found.bind fun bytes =>
    match String.fromUTF8? bytes with
    | some text => .ok text
    | none => .error .notText

/-- The text of a file. -/
def readText (path : Path) : m (Except FileError String) := textOf <$> read path

/-- Gives a file a new text. -/
def writeText (path : Path) (text : String) : m (Except FileError Unit) := write path text.toUTF8

/-- Makes a directory, unless it is there already. -/
def ensureDirectory (path : Path) : m (Except FileError Unit) := do
  match ← makeDirectory path with
  | .error .alreadyExists =>
    if ← isDirectory path then return .ok () else return .error .alreadyExists
  | result => return result

/-- Makes a directory and the directories around it that are missing. Nothing is asked of the root
and of the empty path. -/
def ensureDirectories (path : Path) : m (Except FileError Unit) := do
  match h : path.parent? with
  | none => return .ok ()
  | some parent =>
    match ← ensureDirectory path with
    | .error .notFound =>
      have := Path.parent?_lt h
      match ← ensureDirectories parent with
      | .ok () => ensureDirectory path
      | result => return result
    | result => return result
termination_by path.bytes.length

end Disk

end OrderedEnv
