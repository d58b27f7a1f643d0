import OrderedEnv.Disk
import OrderedEnv.Store

/-!
# The file of a store

A store is saved in two steps: the text is written to a temporary file beside the store
(`Store.stage`), and the temporary file is then moved over the store (`Store.commit`). Whoever reads
the store in between finds it as it was, and so does everybody if a step fails.
-/

namespace OrderedEnv.Store

variable {m : Type → Type} [Monad m] [Disk m]

/-- The bytes behind the path of a store that make the path of its temporary file. -/
def temporarySuffix : List UInt8 := [0x2E, 0x74, 0x6D, 0x70]

/-- The path of the temporary file of a store. -/
def temporaryPath (path : Path) : Path := path.appendBytes temporarySuffix

/-! ## Saving -/

/-- Writes the text of a store to its temporary file. -/
def stage (path : Path) (text : String) : m (Except FileError Unit) :=
  Disk.writeText (temporaryPath path) text

/-- Moves the temporary file of a store over the store. -/
def commit (path : Path) : m (Except FileError Unit) := Disk.rename (temporaryPath path) path

/-- Saves a store. -/
def save (format : StoreFormat) (store : Store) : ExceptT StoreError m Unit := do
  let text ← print format store.declarations
  if let .error cause ← stage store.path text then
    throw (.unwritable store.path cause)
  if let .error cause ← commit store.path then
    throw (.unwritable store.path cause)

/-- Saves a store without declarations. -/
def saveEmpty (format : StoreFormat) (path : Path) : ExceptT StoreError m Store := do
  save format (empty path)
  return empty path

/-! ## Loading -/

/-- Loads the store at a path. -/
def load (format : StoreFormat) (path : Path) : ExceptT StoreError m Store := do
  match ← Disk.readText path with
  | .error .notFound => throw (.notFound path)
  | .error cause => throw (.unreadable path cause)
  | .ok text => return ⟨path, ← parse format text⟩

/-- Makes a store without declarations where there is nothing. -/
def init (format : StoreFormat) (path : Path) : ExceptT StoreError m Store := do
  if ← Disk.isPresent path then throw (.alreadyExists path)
  else saveEmpty format path

/-- Loads the store at a path, or makes one without declarations if there is nothing. -/
def loadOrInit (format : StoreFormat) (path : Path) : ExceptT StoreError m Store := do
  if ← Disk.isPresent path then load format path
  else init format path

/-- Takes all declarations out of the store at a path. It need not be readable. -/
def clear (format : StoreFormat) (path : Path) : ExceptT StoreError m Store := do
  if ← Disk.isPresent path then saveEmpty format path
  else throw (.notFound path)

end OrderedEnv.Store
