import OrderedEnv.Evaluation
import OrderedEnv.Store.Document
import OrderedEnv.Store.Error

/-!
# Stores

A store is a list of declarations that belongs to a file. The order of the list is the order of
evaluation, and a variable may be declared more than once.

`Store.add` changes the list in memory. How the text of the file holds the list is said by a
`StoreFormat`; `StoreFormat.yaml` is the one in use.
-/

namespace OrderedEnv

/-- A list of declarations and the path of its file. -/
structure Store where
  path : Path
  declarations : List Declaration
  deriving Repr

/-- How the text of a file holds raw declarations. -/
structure StoreFormat where
  /-- The text, unless the declarations cannot be written. -/
  write? : List RawDeclaration → Option String
  /-- The declarations in a text. -/
  read : String → Except Yaml.ReadError (List RawDeclaration)

/-- Stores as documents of YAML. -/
def StoreFormat.yaml : StoreFormat := ⟨Store.toYaml?, Store.ofYaml⟩

namespace Store

/-- A store without declarations. -/
def empty (path : Path) : Store := ⟨path, []⟩

/-! ## Text -/

/-- The declarations in a text. -/
def parse (format : StoreFormat) (text : String) : Except StoreError (List Declaration) :=
  match format.read text with
  | .error cause => .error (.malformedDocument cause)
  | .ok raws =>
    match normalize raws with
    | .error (index, cause) => .error (.malformedDeclaration index cause)
    | .ok declarations => .ok declarations

/-- The text of declarations. -/
def print (format : StoreFormat) (declarations : List Declaration) : Except StoreError String :=
  match format.write? (declarations.map Declaration.toRaw) with
  | some text => .ok text
  | none => .error .unprintable

/-! ## Adding -/

/-- What becomes of a variable that is declared already. -/
inductive Policy where
  /-- All its declarations are replaced, each in its place. -/
  | replace
  /-- They are kept, and the new declaration is put behind all others. -/
  | append
  /-- Nothing is added. -/
  | fail
  deriving DecidableEq, Repr

/-- What was done to add a declaration. -/
inductive Added where
  /-- The variable is new. -/
  | added
  /-- So many declarations were replaced. -/
  | replaced (count : Nat)
  /-- The declaration follows so many of the same variable. -/
  | appended (count : Nat)
  deriving DecidableEq, Repr

/-- The number of declarations of a variable in a list. -/
def countIn (declarations : List Declaration) (key : String) : Nat :=
  declarations.countP fun d => d.key = key

/-- Puts a declaration in the place of every declaration of its variable. -/
def replaceAll (d : Declaration) (declarations : List Declaration) : List Declaration :=
  declarations.map fun old => if old.key = d.key then d else old

/-- Adds a declaration to a list. A new variable is always put behind all others. -/
def addTo (declarations : List Declaration) (d : Declaration) (policy : Policy) :
    Except StoreError (Added × List Declaration) :=
  match countIn declarations d.key, policy with
  | 0, _ => .ok (.added, declarations ++ [d])
  | _ + 1, .fail => .error (.keyExists d.key)
  | n + 1, .replace => .ok (.replaced (n + 1), replaceAll d declarations)
  | n + 1, .append => .ok (.appended (n + 1), declarations ++ [d])

/-- The number of declarations of a variable in a store. -/
def count (store : Store) (key : String) : Nat := countIn store.declarations key

/-- Adds a declaration to a store. The file is not touched. -/
def add (store : Store) (d : Declaration) (policy : Policy) : Except StoreError (Added × Store) :=
  (addTo store.declarations d policy).map fun (done, declarations) =>
    (done, { store with declarations })

end Store

end OrderedEnv
