import OrderedEnv.Yaml.Error
import OrderedEnv.Yaml.Value

/-!
# What scalars mean

Text in quotes is text. Plain text is null, a truth value or a number if it is spelled like one.

* Null is `null`, `Null`, `NULL`, `~`, or nothing at all.
* A truth value is `true` or `false`, in small letters, capitals, or with one capital in front.
* An integer has an optional sign and digits, with `0x`, `0o` or `0b` for the bases 16, 8 and 2.
* Digits behind a useless `0` are text, so that `007` stays what it is.
* A floating point number is a decimal that is not too large, or one of `.inf` and `.nan`.

An integer that does not fit into 64 bits is refused while it fits into 128, and is a floating point
number beyond that.
-/

namespace OrderedEnv.Yaml.Scalar

/-- The spellings of null, apart from the empty one. -/
def nullWords : List String := ["null", "Null", "NULL", "~"]

/-- The spellings of the truth values. -/
def boolWords : List (String × Bool) :=
  [("true", true), ("True", true), ("TRUE", true),
    ("false", false), ("False", false), ("FALSE", false)]

/-- The spellings of infinity. -/
def infinityWords : List String := [".inf", ".Inf", ".INF"]

/-- The spellings of NaN. -/
def nanWords : List String := [".nan", ".NaN", ".NAN"]

/-! ## Integers -/

/-- The value of a digit, of either case. -/
def digitValue? (c : Char) : Option Nat :=
  if c.isDigit then some (c.toNat - '0'.toNat)
  else if c.isAlpha then some (c.toLower.toNat - 'a'.toNat + 10)
  else none

/-- The number that digits stand for, of which there must be at least one. -/
def ofDigits? (base : Nat) (cs : List Char) : Option Nat :=
  if cs.isEmpty then none
  else cs.foldl (fun n c => do
    let d ← digitValue? c
    if d < base then return (← n) * base + d else none) (some 0)

/-- Splits off a sign: the text is negative, and the rest. -/
def splitSign : List Char → Bool × List Char
  | '-' :: cs => (true, cs)
  | '+' :: cs => (false, cs)
  | cs => (false, cs)

/-- The text is a zero and more digits, perhaps with a sign. -/
def hasLeadingZero (cs : List Char) : Bool :=
  match (splitSign cs).2 with
  | '0' :: c :: rest => (c :: rest).all Char.isDigit
  | _ => false

/-- Reads an integer of any size. -/
def integer? (cs : List Char) : Option Int :=
  let (negative, digits) := splitSign cs
  let size :=
    match digits with
    | '0' :: 'x' :: rest => ofDigits? 16 rest
    | '0' :: 'o' :: rest => ofDigits? 8 rest
    | '0' :: 'b' :: rest => ofDigits? 2 rest
    | _ => if hasLeadingZero cs then none else ofDigits? 10 digits
  size.map fun n => if negative then -(n : Int) else n

/-- The integer has the size of those in a document. -/
def fits64 (n : Int) : Bool := -(Nat.pow 2 63 : Nat) ≤ n && n < (Nat.pow 2 64 : Nat)

/-- The integer is small enough not to be read as a floating point number. -/
def fits128 (n : Int) : Bool := -(Nat.pow 2 127 : Nat) ≤ n && n < (Nat.pow 2 128 : Nat)

/-! ## Floating point numbers -/

/-- Reads a floating point number. Decimals beyond the range of such numbers are text. -/
def float? (text : String) : Option Binary64 :=
  let cs := text.toList
  if infinityWords.contains text then some (.infinite false)
  else if nanWords.contains text then some .nan
  else
    match cs with
    | '+' :: rest =>
      if infinityWords.contains (String.ofList rest) then some (.infinite false)
      else if rest.head? = some '+' || rest.head? = some '-' then none
      else (Binary64.readDecimal rest).filter Binary64.isFinite
    | '-' :: rest =>
      if infinityWords.contains (String.ofList rest) then some (.infinite true)
      else (Binary64.readDecimal cs).filter Binary64.isFinite
    | _ => (Binary64.readDecimal cs).filter Binary64.isFinite

/-! ## Plain scalars -/

/-- What a plain scalar is spelled like. -/
inductive Reading where
  | null
  | bool (value : Bool)
  /-- An integer of at most 128 bits. -/
  | integer (value : Int)
  | float (value : Binary64)
  | text
  deriving DecidableEq, Repr

/-- Reads the spelling of a plain scalar. -/
def reading (text : String) : Reading :=
  if text.isEmpty || nullWords.contains text then .null
  else
    match boolWords.lookup text, (integer? text.toList).filter fits128 with
    | some value, _ => .bool value
    | none, some n => .integer n
    | none, none =>
      if hasLeadingZero text.toList then .text
      else
        match float? text with
        | some x => .float x
        | none => .text

/-- The integer as a value. -/
def ofInteger (n : Int) : Except ReadError Value :=
  if fits64 n then .ok (.number (.integer n)) else .error .integerTooLarge

/-- The value of a plain scalar. -/
def ofPlain (text : String) : Except ReadError Value :=
  match reading text with
  | .null => .ok .null
  | .bool value => .ok (.bool value)
  | .integer n => ofInteger n
  | .float x => .ok (.number (.float x))
  | .text => .ok (.string text)

/-! ## Tags that force a reading -/

/-- A type that a tag can claim for a scalar. -/
inductive Kind where
  | null
  | bool
  | integer
  | float
  deriving DecidableEq, Repr

/-- The type that the tag of that name claims. -/
def Kind.ofTag? (tag : String) : Option Kind :=
  [("tag:yaml.org,2002:null", .null), ("tag:yaml.org,2002:bool", .bool),
    ("tag:yaml.org,2002:int", .integer), ("tag:yaml.org,2002:float", .float)].lookup tag

/-- The value of a scalar of the type that its tag claims. -/
def Kind.read (text : String) : Kind → Except ReadError Value
  | .null => if nullWords.contains text then .ok .null else .error .tagMismatch
  | .bool =>
    match boolWords.lookup text with
    | some value => .ok (.bool value)
    | none => .error .tagMismatch
  | .integer =>
    match (integer? text.toList).filter fits128 with
    | some n => ofInteger n
    | none => .error .tagMismatch
  | .float =>
    match float? text with
    | some x => .ok (.number (.float x))
    | none => .error .tagMismatch

end OrderedEnv.Yaml.Scalar
