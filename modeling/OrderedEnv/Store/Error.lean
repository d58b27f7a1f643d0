import OrderedEnv.Declaration.Error
import OrderedEnv.FileSystem.Error
import OrderedEnv.Path
import OrderedEnv.Yaml.Error

/-!
# Errors of stores

Why a store could not be read, written or changed.
-/

namespace OrderedEnv

/-- Why a store could not be read, written or changed. -/
inductive StoreError where
  /-- There is no store at the path. -/
  | notFound (path : Path)
  /-- There is something at the path already. -/
  | alreadyExists (path : Path)
  /-- The file could not be read. -/
  | unreadable (path : Path) (cause : FileError)
  /-- The file could not be written. -/
  | unwritable (path : Path) (cause : FileError)
  /-- The text is no document of a store. -/
  | malformedDocument (cause : Yaml.ReadError)
  /-- No document can hold the declarations. -/
  | unprintable
  /-- A declaration in the document is malformed. -/
  | malformedDeclaration (index : Nat) (cause : DeclarationError)
  /-- The variable is declared already, and may not be declared again. -/
  | keyExists (key : String)

namespace StoreError

/-- Why declarations cannot be written. -/
def unprintableText : String := "serializing nested enums in YAML is not supported yet"

/-- The message of what led to an error, if anything did. -/
def cause? : StoreError → Option String
  | .unreadable _ cause => some cause.message
  | .unwritable _ cause => some cause.message
  | .malformedDocument cause => some cause.message
  | .unprintable => some unprintableText
  | .malformedDeclaration _ cause => some cause.message
  | .notFound _ | .alreadyExists _ | .keyExists _ => none

/-- The message of an error. -/
def message : StoreError → String
  | .notFound path => "envstore not found at " ++ path.display
  | .alreadyExists path => "envstore already exists at " ++ path.display
  | .unreadable path cause => "failed to read envstore " ++ path.display ++ ": " ++ cause.message
  | .unwritable path cause => "failed to write envstore " ++ path.display ++ ": " ++ cause.message
  | .malformedDocument cause => "invalid envstore yaml: " ++ cause.message
  | .unprintable => "failed to serialize envstore: " ++ unprintableText
  | .malformedDeclaration index cause =>
    "invalid declaration at index " ++ toString index ++ ": " ++ cause.message
  | .keyExists key => "environment variable " ++ key ++ " is already declared"

end StoreError

end OrderedEnv
