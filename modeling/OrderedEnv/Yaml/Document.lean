import OrderedEnv.Yaml.Node
import OrderedEnv.Yaml.Token.Lexer

/-!
# Documents from tokens

`Document.ofTokens` builds the tree of nodes that tokens describe. Each rule of the grammar is a
function that takes tokens from the front. A node that is not written is the empty node: an item
that is only a dash, a key without a value.

Every two calls take at least one token, so twice the number of tokens bounds their number.
-/

namespace OrderedEnv.Yaml

/-- What is known in the middle of a document. -/
structure NodeReader where
  tokens : List Token
  /-- The handles of tags and what they stand for. -/
  handles : List (String × TagBytes) := []
  /-- The names of anchors with their slots, newest first. -/
  names : List (String × Nat) := []
  /-- How many different names there are. -/
  nameCount : Nat := 0
  /-- How many anchors were set. -/
  anchorCount : Nat := 0
  /-- The nodes with an anchor: its slot, its place among the anchors, and the node. -/
  anchored : List (Nat × Nat × Node) := []
  size : Nat := 0

namespace NodeReader

/-- Reads something from the front of the tokens. -/
abbrev Read := StateT NodeReader (Except ReadError)

/-- The next token. -/
def next : Read (Option Token) := do return (← get).tokens.head?

/-- Leaves out the next token. -/
def skip : Read Unit := modify fun r => { r with tokens := r.tokens.drop 1 }

/-- The next token, if there is one, is among these. -/
def nextIn (tokens : List Token) : Read Bool := do return (← next).any tokens.contains

/-- Leaves out the next token if it is this one, and tells whether it was. -/
def skipIf (token : Token) : Read Bool := do
  if (← next) = some token then
    skip
    return true
  return false

/-- Counts the steps of a node. -/
def count (steps : Nat) : Read Unit := modify fun r => { r with size := r.size + steps }

/-- Stands for a node that is not written. -/
def emptyNode : Read Node := do
  count 1
  return Node.empty

/-! ## Properties -/

/-- The handles that need no directive. -/
def standardHandles : List (String × TagBytes) :=
  [("!", "!".toUTF8.toList), ("!!", "tag:yaml.org,2002:".toUTF8.toList)]

/-- The tag of a handle and a suffix. -/
def expandTag (handle : String) (suffix : TagBytes) : Read TagBytes := do
  if handle.isEmpty then return suffix
  match ((← get).handles ++ standardHandles).lookup handle with
  | some expansion => return expansion ++ suffix
  | none => throw .undefinedHandle

/-- An anchor: its slot, and its place among the anchors. -/
structure Anchor where
  slot : Nat
  place : Nat

/-- Sets an anchor. -/
def setAnchor (name : String) : Read Anchor := do
  let r ← get
  let anchor : Anchor := ⟨r.nameCount, r.anchorCount⟩
  let isNew := (r.names.lookup name).isNone
  set { r with
    names := (name, anchor.slot) :: r.names
    nameCount := if isNew then r.nameCount + 1 else r.nameCount
    anchorCount := r.anchorCount + 1 }
  return anchor

/-- The anchor and the tag of a node, in either order, as they are written. -/
def properties : Read (Option String × Option (String × TagBytes)) := do
  match ← next with
  | some (.anchor name) =>
    skip
    match ← next with
    | some (.tag handle suffix) =>
      skip
      return (some name, some (handle, suffix))
    | _ => return (some name, none)
  | some (.tag handle suffix) =>
    skip
    match ← next with
    | some (.anchor name) =>
      skip
      return (some name, some (handle, suffix))
    | _ => return (none, some (handle, suffix))
  | _ => return (none, none)

/-- Remembers a node that has an anchor. -/
def remember (anchor : Option Anchor) (node : Node) : Read Node := do
  match anchor with
  | some anchor =>
    modify fun r => { r with anchored := (anchor.slot, anchor.place, node) :: r.anchored }
    return node
  | none => return node

/-! ## Nodes -/

mutual

/-- A node. Block collections are allowed only where `block` is set, and a sequence that is not
indented only where `indentless` is. -/
def node (block indentless : Bool) : Nat → Read Node
  | 0 => throw .unexpectedToken
  | fuel + 1 => do
    if let some (.reference name) ← next then
      skip
      count 1
      match (← get).names.lookup name with
      | some slot => return .reference slot
      | none => throw .undefinedAlias
    else
      let (name, writtenTag) ← properties
      let tag ← writtenTag.mapM fun (handle, suffix) => expandTag handle suffix
      match ← next with
      | some (.scalar text plain) =>
        skip
        count 1
        remember (← name.mapM setAnchor) (.scalar tag text plain)
      | token =>
        if indentless && token = some .blockEntry then
          count 2
          let anchor ← name.mapM setAnchor
          remember anchor (.sequence tag (← indentlessItems [] fuel))
        else if token = some .flowSequenceStart then
          skip
          count 2
          let anchor ← name.mapM setAnchor
          remember anchor (.sequence tag (← flowItems [] fuel))
        else if token = some .flowMappingStart then
          skip
          count 2
          let anchor ← name.mapM setAnchor
          remember anchor (.mapping tag (← flowEntries [] fuel))
        else if block && token = some .blockSequenceStart then
          skip
          count 2
          let anchor ← name.mapM setAnchor
          remember anchor (.sequence tag (← blockItems [] fuel))
        else if block && token = some .blockMappingStart then
          skip
          count 2
          let anchor ← name.mapM setAnchor
          remember anchor (.mapping tag (← blockEntries [] fuel))
        else if name.isSome || tag.isSome then
          count 1
          remember (← name.mapM setAnchor) (.scalar tag "" true)
        else throw .unexpectedToken

/-- The items of a block sequence, put before `done`, last one first. -/
def blockItems (done : List Node) : Nat → Read (List Node)
  | 0 => throw .unexpectedToken
  | fuel + 1 => do
    if ← skipIf .blockEntry then
      let item ←
        if ← nextIn [.blockEntry, .blockEnd] then emptyNode else node true false fuel
      blockItems (item :: done) fuel
    else if ← skipIf .blockEnd then return done.reverse
    else throw .unexpectedToken

/-- The items of a sequence that stands at the column of its key. -/
def indentlessItems (done : List Node) : Nat → Read (List Node)
  | 0 => throw .unexpectedToken
  | fuel + 1 => do
    if ← skipIf .blockEntry then
      let item ←
        if ← nextIn [.blockEntry, .key, .value, .blockEnd] then emptyNode
        else node true false fuel
      indentlessItems (item :: done) fuel
    else return done.reverse

/-- The entries of a block mapping. -/
def blockEntries (done : List (Node × Node)) : Nat → Read (List (Node × Node))
  | 0 => throw .unexpectedToken
  | fuel + 1 => do
    if ← skipIf .key then
      let key ←
        if ← nextIn [.key, .value, .blockEnd] then emptyNode else node true true fuel
      let value ←
        if ← skipIf .value then
          if ← nextIn [.key, .value, .blockEnd] then emptyNode else node true true fuel
        else emptyNode
      blockEntries ((key, value) :: done) fuel
    else if ← skipIf .blockEnd then return done.reverse
    else throw .unexpectedToken

/-- The items of a flow sequence. A single entry of a mapping may stand as an item. When its key is
missing, the token in place of the key is passed over. -/
def flowItems (done : List Node) : Nat → Read (List Node)
  | 0 => throw .unexpectedToken
  | fuel + 1 => do
    if ← skipIf .flowSequenceEnd then return done.reverse
    if !done.isEmpty then
      if !(← skipIf .flowEntry) then throw .unexpectedToken
    if ← skipIf .key then
      count 2
      let key ←
        if ← nextIn [.value, .flowEntry, .flowSequenceEnd] then do
          skip
          emptyNode
        else node false false fuel
      let value ←
        if ← skipIf .value then
          if ← nextIn [.flowEntry, .flowSequenceEnd] then emptyNode
          else node false false fuel
        else emptyNode
      flowItems (.mapping none [(key, value)] :: done) fuel
    else if ← skipIf .flowSequenceEnd then return done.reverse
    else
      let item ← node false false fuel
      flowItems (item :: done) fuel

/-- The entries of a flow mapping. -/
def flowEntries (done : List (Node × Node)) : Nat → Read (List (Node × Node))
  | 0 => throw .unexpectedToken
  | fuel + 1 => do
    if ← skipIf .flowMappingEnd then return done.reverse
    if !done.isEmpty then
      if !(← skipIf .flowEntry) then throw .unexpectedToken
    if ← skipIf .key then
      let key ←
        if ← nextIn [.value, .flowEntry, .flowMappingEnd] then emptyNode
        else node false false fuel
      let value ←
        if ← skipIf .value then
          if ← nextIn [.flowEntry, .flowMappingEnd] then emptyNode
          else node false false fuel
        else emptyNode
      flowEntries ((key, value) :: done) fuel
    else if ← skipIf .flowMappingEnd then return done.reverse
    else
      let key ← node false false fuel
      let value ← emptyNode
      flowEntries ((key, value) :: done) fuel

end

/-! ## Documents -/

/-- The directives in front of a document. `versioned` tells that one of them gave a version. -/
def directives (versioned : Bool) : List Token → Read Bool
  | .version major minor :: rest => do
    if versioned then throw .badDirective
    if major ≠ 1 || (minor ≠ 1 && minor ≠ 2) then throw .unsupportedVersion
    skip
    directives true rest
  | .tagDirective handle expansion :: rest => do
    if ((← get).handles.lookup handle).isSome then throw .badDirective
    skip
    modify fun r => { r with handles := (handle, expansion) :: r.handles }
    directives versioned rest
  | _ => return versioned

/-- The token starts a document that is announced. -/
def announces : Token → Bool
  | .version _ _ => true
  | .tagDirective _ _ => true
  | .documentStart => true
  | _ => false

/-- The root of a document that has no other before it. -/
def root : Read Node := do
  let tokens := (← get).tokens
  match tokens with
  | [] => emptyNode
  | token :: _ =>
    let fuel := 2 * tokens.length + 2
    if announces token then
      let _ ← directives false tokens
      if !(← skipIf .documentStart) then throw .unexpectedToken
      match ← next with
      | none => emptyNode
      | some token =>
        if announces token || token = .documentEnd then emptyNode else node true false fuel
    else node true false fuel

end NodeReader

/-- The nodes in the slots. `anchored` holds them last one first, with their places. -/
def Document.slotsOf (anchored : List (Nat × Nat × Node)) : List (Nat × Node) :=
  (anchored.mergeSort fun a b => b.2.1 ≤ a.2.1).map fun (slot, _, node) => (slot, node)

/-- The document that tokens describe. There must be no second one behind it. -/
def Document.ofTokens (tokens : List Token) : Except ReadError Document := do
  let (root, reader) ← NodeReader.root.run { tokens }
  if !(reader.tokens.all (· = .documentEnd)) then throw .secondDocument
  return { root, slots := slotsOf reader.anchored, size := reader.size }

/-- The document that a text holds. -/
def Document.ofText (text : String) : Except ReadError Document := do
  ofTokens (← Token.ofText text.toList)

end OrderedEnv.Yaml
