import OrderedEnv.Decimal.Shortest

/-!
# YAML values

The values a document is made of. A mapping keeps the order of its entries and holds no key twice.

Two values are the same (`Value.same`) when they are built alike, with three exceptions: the order
of the entries of a mapping does not matter, NaN is the same as NaN, and the two zeros are the same
number.
-/

namespace OrderedEnv.Yaml

/-- A number. Integers are those of 64 bits, with or without sign. -/
inductive Number where
  | integer (value : Int)
  | float (value : Binary64)
  deriving DecidableEq, Repr, Inhabited

/-- The text of a number. -/
def Number.text : Number → String
  | .integer value => toString value
  | .float value => value.text

/-- Equality of numbers. An integer is never the same as a floating point number. -/
def Number.same : Number → Number → Bool
  | .integer a, .integer b => a = b
  | .float a, .float b => a.same b
  | _, _ => false

/-- A value. The name of a tag is what stands behind its `!`, and `!` for the tag that is just
`!`. -/
inductive Value where
  | null
  | bool (value : Bool)
  | number (value : Number)
  | string (value : String)
  | sequence (items : List Value)
  | mapping (entries : List (Value × Value))
  | tagged (tag : String) (value : Value)
  deriving Repr, Inhabited

/-- The entries of a mapping, in order. -/
abbrev Mapping := List (Value × Value)

namespace Value

/-! ## Equality -/

mutual

/-- Equality of values. -/
def same : Value → Value → Bool
  | .null, .null => true
  | .bool a, .bool b => a = b
  | .number a, .number b => a.same b
  | .string a, .string b => a = b
  | .sequence a, .sequence b => sameItems a b
  | .mapping a, .mapping b => a.length = b.length && sameEntries a b
  | .tagged s a, .tagged t b => s = t && same a b
  | _, _ => false

/-- The items are pairwise the same. -/
def sameItems : List Value → List Value → Bool
  | [], [] => true
  | a :: as, b :: bs => same a b && sameItems as bs
  | _, _ => false

/-- Every entry of the first list has an entry with the same key and value in the second. -/
def sameEntries : List (Value × Value) → List (Value × Value) → Bool
  | [], _ => true
  | (k, v) :: as, bs => bs.any (fun entry => same k entry.1 && same v entry.2) && sameEntries as bs

end

/-! ## Scalars -/

/-- The value is null, under any number of tags. -/
def isNull : Value → Bool
  | .null => true
  | .tagged _ value => value.isNull
  | _ => false

/-- The text of a scalar, under any number of tags. Null has the empty text. -/
def scalarText? : Value → Option String
  | .null => some ""
  | .bool value => some (toString value)
  | .number value => some value.text
  | .string value => some value
  | .sequence _ => none
  | .mapping _ => none
  | .tagged _ value => value.scalarText?

/-- What a message says a value is. -/
def describe : Value → String
  | .null => "null"
  | .bool value => "bool " ++ toString value
  | .number value => "number " ++ value.text
  | .string value => "string '" ++ value ++ "'"
  | .sequence _ => "a list"
  | .mapping _ => "a map"
  | .tagged tag _ => "tagged value !" ++ tag

end Value

namespace Mapping

/-- Sets the value of a key: in its place if it is there, else at the end. -/
def insert : Mapping → Value → Value → Mapping
  | [], key, value => [(key, value)]
  | entry :: rest, key, value =>
    if entry.1.same key then (entry.1, value) :: rest else entry :: insert rest key value

/-- Adds the entries of a list one after the other. -/
def ofEntries (entries : List (Value × Value)) : Mapping :=
  entries.foldl (fun done entry => insert done entry.1 entry.2) []

end Mapping

end OrderedEnv.Yaml
