/-!
# JSON values

A JSON text as a tree. Numbers are kept as they are written, and so is the text between the quotes of
a string: whether its escapes make sense matters only where the string is looked at (`decode?`).
-/

namespace OrderedEnv

/-- A JSON value. -/
inductive Json where
  | null
  | bool (value : Bool)
  | number (written : List Char)
  | string (written : List Char)
  | array (items : List Json)
  | object (entries : List (List Char × Json))
  deriving Repr, Inhabited

namespace Json

/-- The value of a digit in base 16. -/
def hexValue? (c : Char) : Option Nat :=
  if c.isDigit then some (c.toNat - '0'.toNat)
  else if 'a' ≤ c.toLower && c.toLower ≤ 'f' then some (c.toLower.toNat - 'a'.toNat + 10)
  else none

/-- The number that four digits in base 16 stand for. -/
def hex4? (a b c d : Char) : Option Nat := do
  return (((← hexValue? a) * 16 + (← hexValue? b)) * 16 + (← hexValue? c)) * 16 + (← hexValue? d)

/-- The escapes of one letter, with what they stand for. -/
def escapes : List (Char × Char) := [('"', '"'), ('\\', '\\'), ('/', '/'), ('b', '\x08'),
  ('f', '\x0c'), ('n', '\n'), ('r', '\r'), ('t', '\t')]

/-- The text that a string stands for. Two escapes may stand for one character together; one of them
alone is no text. -/
def decode? : List Char → Option (List Char)
  | [] => some []
  | '\\' :: 'u' :: a :: b :: c :: d :: rest => do
    let n ← hex4? a b c d
    if 0xD800 ≤ n && n ≤ 0xDBFF then
      match rest with
      | '\\' :: 'u' :: a :: b :: c :: d :: rest => do
        let m ← hex4? a b c d
        if m < 0xDC00 || 0xDFFF < m then none
        return Char.ofNat (0x10000 + (n - 0xD800) * 0x400 + (m - 0xDC00)) :: (← decode? rest)
      | _ => none
    else if 0xDC00 ≤ n && n ≤ 0xDFFF then none
    else return Char.ofNat n :: (← decode? rest)
  | '\\' :: c :: rest => do return (← escapes.lookup c) :: (← decode? rest)
  | c :: rest => do return c :: (← decode? rest)

/-- The number is a natural number of 64 bits, without a sign, fraction or exponent. -/
def uint64? : Json → Option UInt64
  | .number written =>
    if written.all Char.isDigit then
      let n := Nat.ofDigitChars 10 written 0
      if n < UInt64.size then some (UInt64.ofNat n) else none
    else none
  | _ => none

end Json

end OrderedEnv
