import OrderedEnv.Declaration.Raw
import OrderedEnv.Text.WhiteSpace
import OrderedEnv.Yaml.Document.Value
import OrderedEnv.Yaml.Printer

/-!
# The document of a store

A store is kept in a YAML document, a mapping whose entry `envs` lists the declarations:

```yaml
envs:
- HOST: example.com
- URL: https://$HOST/api
```

Other entries are passed over, and `envs` may be null or left out. A text of white space alone is an
empty store.
-/

namespace OrderedEnv.Store

open Yaml

/-- The key of the declarations. -/
def declarationsKey : String := "envs"

/-- The declarations are left out: nothing is written, or null. -/
def isAbsent (tag : Option TagBytes) (text : String) : Except ReadError Bool :=
  match tag with
  | none => .ok (text.isEmpty || Scalar.nullWords.contains text)
  | some bytes =>
    if bytes = "tag:yaml.org,2002:null".toUTF8.toList then
      if Scalar.nullWords.contains text then .ok true else .error .tagMismatch
    else .ok text.isEmpty

/-- The declarations that a node lists. -/
def rawDeclarations (d : Document) (node : Node) : Document.Compose (List RawDeclaration) := do
  match ← d.follow node with
  | .scalar tag text true => if ← isAbsent tag text then return [] else throw .wrongKind
  | .sequence _ items => items.mapM (d.mapping (maxDepth - 2))
  | _ => throw .wrongKind

/-- Reads the entries of the document from left to right. `found` holds the declarations once they
were met. -/
def readEntries (d : Document) (found : Option (List RawDeclaration)) :
    List (Node × Node) → Document.Compose (List RawDeclaration)
  | [] => return found.getD []
  | (key, node) :: rest => do
    match ← d.follow key with
    | .scalar _ name _ =>
      if name = declarationsKey then
        if found.isSome then throw .duplicateKey
        readEntries d (some (← rawDeclarations d node)) rest
      else readEntries d found rest
    | _ => throw .wrongKind

/-- Reads the document of a store. -/
def ofYaml (text : String) : Except ReadError (List RawDeclaration) := do
  if Text.isBlank text then return []
  let d ← Document.ofText text
  match d.root with
  | .scalar _ "" true => return []
  | .mapping _ entries => (readEntries d none entries).run' 0
  | _ => throw .wrongKind

/-- Writes the document of a store, or nothing if a value in it cannot be written. -/
def toYaml? (raws : List RawDeclaration) : Option String :=
  (Value.mapping [(.string declarationsKey, .sequence (raws.map .mapping))]).print?

end OrderedEnv.Store
