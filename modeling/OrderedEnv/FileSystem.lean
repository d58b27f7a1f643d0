import Std.Data.ExtTreeMap
import OrderedEnv.FileSystem.Error
import OrderedEnv.Path

/-!
# File systems

A file system says what is found at each place: a file with its bytes, a directory, or nothing. A
place is the list of names that leads to it from the root, the last one first, so the directory of a
place is its tail. The root is always a directory.

Every operation first walks along the names of its path (`FileSystem.resolve`) and then looks at, or
changes, the entry at the place where the walk ends. There are no links, and everybody may do
everything.
-/

namespace OrderedEnv

/-- A place in a file system: the names that lead to it, the last one first. -/
abbrev Location := List Name

/-- What is found at a place. -/
inductive Entry where
  | file (content : ByteArray)
  | directory
  deriving DecidableEq

/-- Files and directories, and the directory that relative paths start from. -/
structure FileSystem where
  /-- What is found at each place but the root. -/
  entries : Std.ExtTreeMap Location Entry
  workingDirectory : Location

namespace FileSystem

/-! ## Entries -/

/-- What is found at a place. -/
def get? (fs : FileSystem) : Location → Option Entry
  | [] => some .directory
  | place => fs.entries[place]?

/-- The file system with another entry at a place. -/
def insert (fs : FileSystem) (place : Location) (entry : Entry) : FileSystem :=
  { fs with entries := fs.entries.insert place entry }

/-- The file system with nothing at a place. -/
def erase (fs : FileSystem) (place : Location) : FileSystem :=
  { fs with entries := fs.entries.erase place }

/-! ## Walking along a path -/

/-- The greatest number of bytes in a name. -/
def maxName : Nat := 255

/-- The number of bytes that a path may not reach. -/
def maxPath : Nat := 4096

/-- One name further along a path, which takes a directory to start from. -/
def step (fs : FileSystem) (place : Location) (name : Name) : Except FileError Location :=
  match fs.get? place with
  | none => .error .notFound
  | some (.file _) => .error .notDirectory
  | some .directory =>
    if name = Name.here then .ok place
    else if name = Name.up then .ok place.tail
    else if maxName < name.length then .error .nameTooLong
    else .ok (name :: place)

/-- A path that no file system takes. -/
def refuse (path : Path) : Except FileError Unit :=
  if path.bytes.contains 0 then .error .zeroByte
  else if path.isEmpty then .error .notFound
  else if maxPath ≤ path.bytes.length then .error .nameTooLong
  else .ok ()

/-- Where a path starts. -/
def origin (fs : FileSystem) (path : Path) : Location :=
  if path.isAbsolute then [] else fs.workingDirectory

/-- The place a path leads to, which may be empty. -/
def resolve (fs : FileSystem) (path : Path) : Except FileError Location := do
  refuse path
  path.names.foldlM fs.step (fs.origin path)

/-- The last name of the path is an ordinary one, with slashes behind it or not. -/
def endsInName (path : Path) : Bool :=
  match path.names.getLast? with
  | none => false
  | some name => name ≠ Name.here && name ≠ Name.up

/-! ## Looking -/

/-- What a path leads to. A path with a slash at its end leads to no file. -/
def lookup (fs : FileSystem) (path : Path) : Except FileError Entry := do
  match fs.get? (← fs.resolve path) with
  | none => .error .notFound
  | some (.file content) =>
    if path.endsInSlash then .error .notDirectory else .ok (.file content)
  | some .directory => .ok .directory

/-- The bytes of a file. -/
def read (fs : FileSystem) (path : Path) : Except FileError ByteArray := do
  match ← fs.lookup path with
  | .file content => .ok content
  | .directory => .error .isDirectory

/-! ## Changing -/

/-- Gives a file new content. The file is made if there is none. -/
def write (fs : FileSystem) (path : Path) (content : ByteArray) : Except FileError FileSystem := do
  let place ← fs.resolve path
  if !endsInName path || path.endsInSlash then .error .isDirectory
  else
    match fs.get? place with
    | some .directory => .error .isDirectory
    | _ => .ok (fs.insert place (.file content))

/-- Moves a file to another path, over the file that may be there. -/
def rename (fs : FileSystem) (source target : Path) : Except FileError FileSystem := do
  let origin ← fs.resolve source
  let place ← fs.resolve target
  if !endsInName source || !endsInName target then .error .busy
  else
    match fs.get? origin with
    | none => .error .notFound
    | some .directory => .error .isDirectory
    | some (.file content) =>
      if source.endsInSlash || target.endsInSlash then .error .notDirectory
      else
        match fs.get? place with
        | some .directory => .error .isDirectory
        | _ => .ok ((fs.erase origin).insert place (.file content))

/-- Removes a file. -/
def remove (fs : FileSystem) (path : Path) : Except FileError FileSystem := do
  let place ← fs.resolve path
  if !endsInName path then .error .isDirectory
  else
    match fs.get? place with
    | none => .error .notFound
    | some .directory => .error .isDirectory
    | some (.file _) => if path.endsInSlash then .error .notDirectory else .ok (fs.erase place)

/-- Makes a directory. The directory around it must be there. -/
def makeDirectory (fs : FileSystem) (path : Path) : Except FileError FileSystem := do
  let place ← fs.resolve path
  if !endsInName path then .error .alreadyExists
  else
    match fs.get? place with
    | some _ => .error .alreadyExists
    | none => .ok (fs.insert place .directory)

end FileSystem

end OrderedEnv
