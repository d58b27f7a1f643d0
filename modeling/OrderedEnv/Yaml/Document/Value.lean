import OrderedEnv.Yaml.Document
import OrderedEnv.Yaml.Scalar

/-!
# Values from documents

`Document.value` turns a node into the value it stands for. Aliases are followed, so the value of a
small document can be large; the number of aliases followed is limited by the size of the document,
and collections may be nested only so deep. The latter also stops a node that holds an alias of
itself.

A local tag makes a tagged value. Any other tag has a meaning only if it claims one of the types of
scalars; all it does besides is to make a plain scalar text.
-/

namespace OrderedEnv.Yaml

/-- How deep collections may be nested. -/
def maxDepth : Nat := 128

namespace Document

/-- Reads values. The state counts the aliases that were followed. -/
abbrev Compose := StateT Nat (Except ReadError)

/-- The node that a node stands for. -/
def follow (d : Document) : Node → Compose Node
  | .reference slot => do
    modify (· + 1)
    if 100 * d.size < (← get) then throw .tooManyAliases
    match d.slots.lookup slot with
    | some node => return node
    | none => throw .undefinedAlias
  | node => return node

/-- The value of a scalar, without a local tag. -/
def scalar (tag : Option TagBytes) (text : String) (plain : Bool) : Except ReadError Value :=
  let byStyle := if plain then Scalar.ofPlain text else .ok (.string text)
  match tag with
  | none => byStyle
  | some bytes =>
    match (String.fromUTF8? (ByteArray.mk bytes.toArray)).bind Scalar.Kind.ofTag? with
    | some kind => kind.read text
    | none => if bytes.head? = some '!'.toUInt8 then byStyle else .ok (.string text)

/-- Adds a tag to a value, unless there is none. -/
def withTag (tag : Option String) (value : Value) : Value :=
  match tag with
  | some name => .tagged name value
  | none => value

/-- Adds an entry to the entries of a mapping, last one first, which must not hold its key yet. -/
def addEntry (done : Mapping) (key value : Value) : Except ReadError Mapping :=
  if done.any (fun entry => entry.1.same key) then .error .duplicateKey
  else .ok ((key, value) :: done)

/-- The value of a node, in which collections are nested at most `depth` deep. -/
def value (d : Document) (depth : Nat) (node : Node) : Compose Value := do
  match ← d.follow node, depth with
  | .scalar tag text plain, _ =>
    return withTag (tag.bind localTag?) (← scalar tag text plain)
  | .sequence tag items, depth + 1 =>
    return withTag (tag.bind localTag?) (.sequence (← items.mapM (d.value depth)))
  | .mapping tag entries, depth + 1 =>
    let entries ← entries.foldlM (fun done entry => do
      let key ← d.value depth entry.1
      let value ← d.value depth entry.2
      addEntry done key value) []
    return withTag (tag.bind localTag?) (.mapping entries.reverse)
  | .reference _, _ => throw .undefinedAlias
  | _, 0 => throw .nestedTooDeep

/-- The entries of a node that must be a mapping. Its tag does not matter, and nothing at all counts
as a mapping without entries. -/
def mapping (d : Document) (depth : Nat) (node : Node) : Compose Mapping := do
  match ← d.follow node with
  | .scalar _ "" true => return []
  | .mapping _ entries =>
    match ← d.value depth (.mapping none entries) with
    | .mapping entries => return entries
    | _ => throw .wrongKind
  | _ => throw .wrongKind

end Document

/-- Reads a document that must be a mapping. -/
def Mapping.ofText (text : String) : Except ReadError Mapping := do
  let d ← Document.ofText text
  (d.mapping maxDepth d.root).run' 0

end OrderedEnv.Yaml
