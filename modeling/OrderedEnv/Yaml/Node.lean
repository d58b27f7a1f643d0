import OrderedEnv.Yaml.Error

/-!
# Nodes

A document is a tree of nodes. An alias stands in the tree for a node that was marked with an
anchor. It does not hold the name of the anchor but a slot, which tells apart anchors of the same
name.

Slots are given out in a way that shows: an anchor whose name is set for the first time gets the
number of names before it, and one whose name is set again the number of all names so far. Where two
anchors share a slot, the later one takes it, also for the aliases before it.
-/

namespace OrderedEnv.Yaml

/-- The bytes of a tag, with its handle expanded. -/
abbrev TagBytes := List UInt8

/-- A node. A scalar tells whether it was written plainly, without quotes. -/
inductive Node where
  | scalar (tag : Option TagBytes) (text : String) (plain : Bool)
  | sequence (tag : Option TagBytes) (items : List Node)
  | mapping (tag : Option TagBytes) (entries : List (Node × Node))
  | reference (slot : Nat)
  deriving Repr, Inhabited

/-- The node that stands where nothing is written. -/
def Node.empty : Node := .scalar none "" true

/-- A tree of nodes with the nodes in its slots. -/
structure Document where
  root : Node
  /-- The nodes in the slots, for each slot the one that counts first. -/
  slots : List (Nat × Node)
  /-- How many steps it takes to write the document down: one for a scalar or an alias, and two for
  a collection besides those for its members. -/
  size : Nat

/-- The name of a local tag, without the `!` in front of it. Other tags have none. -/
def localTag? (tag : TagBytes) : Option String :=
  match (String.fromUTF8? (ByteArray.mk tag.toArray)).map String.toList with
  | some ('!' :: '!' :: c :: rest) => some (String.ofList (c :: rest))
  | some ['!', '!'] => some "!"
  | some ('!' :: c :: rest) => some (String.ofList (c :: rest))
  | some ['!'] => some "!"
  | _ => none

end OrderedEnv.Yaml
