import OrderedEnv.Yaml.Printer.Scalar
import OrderedEnv.Yaml.Value

/-!
# Writing documents

Collections are written as blocks, indented by two columns, and empty ones as `[]` and `{}`. A
sequence under the key of a mapping starts at the column of the key.

```yaml
envs:
- TOKEN: secret
  opts:
    is_sensitive: true
```

A short key stands in front of its value on one line. Any other key is announced with `?`, and its
value follows on a new line.

Not every value can be written: a tag directly inside a tag cannot, nor can a mapping of one entry,
unless it has a tag, whose key is a mapping of one entry or has a tag.
-/

namespace OrderedEnv.Yaml

namespace Printer

/-! ## Values that can be written -/

mutual

/-- The value can be written. `tagged` tells that a tag stands directly in front of it. -/
def isWritable (tagged : Bool) : Value → Bool
  | .tagged _ value => !tagged && isWritable true value
  | .sequence items => areWritable items
  | .mapping entries => (tagged || !isAmbiguousKey entries) && entriesWritable entries
  | _ => true
where
  /-- The only entry has a key that would be taken for the mapping itself. -/
  isAmbiguousKey : List (Value × Value) → Bool
    | [(.mapping [_], _)] => true
    | [(.tagged _ _, _)] => true
    | _ => false

/-- All items can be written. -/
def areWritable : List Value → Bool
  | [] => true
  | item :: rest => isWritable false item && areWritable rest

/-- All keys and values can be written. -/
def entriesWritable : List (Value × Value) → Bool
  | [] => true
  | (key, value) :: rest =>
    isWritable false key && isWritable false value && entriesWritable rest

end

/-! ## Tags -/

/-- A tag as it is written, in two parts: a handle and what stands behind it. Without a handle the
tag is written in full. -/
structure WrittenTag where
  handle : List Char
  suffix : List Char

/-- The tag of a name. -/
def WrittenTag.ofName (name : String) : WrittenTag :=
  match name.toList with
  | ['!'] => ⟨[], ['!']⟩
  | '!' :: rest => ⟨['!'], rest⟩
  | cs => ⟨['!'], cs⟩

/-- How many bytes a tag has. -/
def WrittenTag.size (tag : WrittenTag) : Nat :=
  tag.handle.length + (String.ofList tag.suffix).utf8ByteSize

/-- A character of a tag: as it is if it may stand there, else as an escape for each of its bytes. -/
def tagChar (c : Char) : List Char :=
  if isTagChar true c && c ≠ '!' then [c]
  else (String.singleton c).toUTF8.toList.flatMap fun b => '%' :: hexDigits 2 b.toNat

/-- Writes a tag. -/
def writeTag (tag : WrittenTag) (p : Page) : Page :=
  let suffix := tag.suffix.flatMap tagChar
  if tag.handle.isEmpty then p.word ('!' :: '<' :: suffix ++ ['>'])
  else p.word (tag.handle ++ suffix)

/-- Writes a tag, if there is one. -/
def writeTag? (tag : Option WrittenTag) (p : Page) : Page :=
  match tag with
  | some tag => writeTag tag p
  | none => p

/-! ## Keys -/

/-- How many bytes a key may have in front of its value. -/
def maxKeySize : Nat := 128

/-- The size of a key that fits on a line, a tag apart. -/
def keySize? : Value → Option Nat
  | .null => some 4
  | .bool value => some (toString value).utf8ByteSize
  | .number value => some value.text.utf8ByteSize
  | .string value => if isMultiline value.toList then none else some value.utf8ByteSize
  | .sequence [] => some 0
  | .mapping [] => some 0
  | _ => none

/-- The key can stand in front of its value. -/
def isShortKey : Value → Bool
  | .tagged name value =>
    (keySize? value).any fun size => (WrittenTag.ofName name).size + size ≤ maxKeySize
  | value => (keySize? value).any (· ≤ maxKeySize)

/-! ## Values -/

/-- The column of a collection inside one that starts at `base`, or at the top if that is `none`. -/
def deeper (base : Option Nat) : Nat :=
  match base with
  | none => 0
  | some column => column + 2

/-- The column for further lines of text in a collection that starts at `base`. -/
def textColumn (base : Option Nat) : Nat := base.getD 0 + 2

mutual

/-- Writes a value in a collection that starts at `base`, behind its tag. `inMapping` tells that the
collection is a mapping. -/
def write (base : Option Nat) (inMapping : Bool) (tag : Option WrittenTag) : Value → Page → Page
  | .tagged name value, p => write base inMapping (some (WrittenTag.ofName name)) value p
  | .null, p => (writeTag? tag p).word "null".toList
  | .bool value, p => (writeTag? tag p).word (toString value).toList
  | .number value, p => (writeTag? tag p).word value.text.toList
  | .string value, p => writeText (textColumn base) value (writeTag? tag p)
  | .sequence [], p => (writeTag? tag p).word ['[', ']']
  | .sequence items, p =>
    let p := writeTag? tag p
    let column := if inMapping && !p.indented then base.getD 0 else deeper base
    writeItems column items p
  | .mapping [], p => (writeTag? tag p).word ['\x7b', '\x7d']
  | .mapping entries, p => writeEntries (deeper base) entries (writeTag? tag p)

/-- Writes the items of a sequence. -/
def writeItems (column : Nat) : List Value → Page → Page
  | [], p => p
  | item :: rest, p =>
    writeItems column rest (write (some column) false none item ((p.indentTo column).bullet '-'))

/-- Writes the entries of a mapping. -/
def writeEntries (column : Nat) : List (Value × Value) → Page → Page
  | [], p => p
  | (key, value) :: rest, p =>
    let p := p.indentTo column
    let p :=
      if isShortKey key then (write (some column) true none key p).append [':']
      else ((write (some column) true none key (p.bullet '?')).indentTo column).bullet ':'
    writeEntries column rest (write (some column) true none value p)

end

end Printer

/-- The text of a document, or nothing if its value cannot be written. -/
def Value.print? (value : Value) : Option String :=
  if Printer.isWritable false value then
    some ((Printer.write none false none value {}).indentTo 0).text
  else none

end OrderedEnv.Yaml
