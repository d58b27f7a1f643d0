/-!
# Binary floating point numbers of 64 bits

A finite number is `mantissa * 2 ^ exponent` with a mantissa below `2 ^ 53` and an exponent from
`-1074` to `971`. The mantissa is at least `2 ^ 52` unless the exponent is the least one, so every
finite number but zero has one form.

Decimal text is rounded exactly, in natural numbers: to the nearest such number, and to the even
mantissa where two are equally near.
-/

namespace OrderedEnv

/-- A binary floating point number of 64 bits. All payloads of NaN count as one. -/
inductive Binary64 where
  | nan
  | infinite (negative : Bool)
  | finite (negative : Bool) (mantissa : Nat) (exponent : Int)
  deriving DecidableEq, Repr, Inhabited

namespace Binary64

/-- The least exponent. -/
def minExponent : Int := -1074

/-- The greatest exponent of a finite number. -/
def maxExponent : Int := 971

/-- The zero of the given sign. -/
def zero (negative : Bool) : Binary64 := .finite negative 0 minExponent

/-- A quotient rounded to the nearest natural number, and to the even one in the middle. -/
def roundDiv (num den : Nat) : Nat :=
  let q := num / den
  let r := num % den
  if 2 * r < den then q
  else if 2 * r > den then q + 1
  else if q % 2 = 0 then q else q + 1

/-- `num / den * 2 ^ -shift` as a pair of numerator and denominator. -/
def shiftRatio (num den : Nat) (shift : Int) : Nat × Nat :=
  if 0 ≤ shift then (num, den * Nat.pow 2 shift.toNat)
  else (num * Nat.pow 2 (-shift).toNat, den)

/-- The number nearest to `num / den`. -/
def ofRatio (negative : Bool) (num den : Nat) : Binary64 :=
  if num = 0 then zero negative
  else
    let magnitude : Int := (Nat.log2 num : Int) - (Nat.log2 den : Int)
    let (n, d) := shiftRatio num den magnitude
    let exponent := max (if n < d then magnitude - 53 else magnitude - 52) minExponent
    let (n, d) := shiftRatio num den exponent
    let mantissa := roundDiv n d
    let (mantissa, exponent) :=
      if mantissa = Nat.pow 2 53 then (Nat.pow 2 52, exponent + 1) else (mantissa, exponent)
    if maxExponent < exponent then .infinite negative else .finite negative mantissa exponent

/-- The number nearest to `digits * 10 ^ exponent`. Beyond `10 ^ 310` and below `10 ^ -330` the
answer is known without the quotient, which keeps the numbers small. -/
def ofDecimal (negative : Bool) (digits : Nat) (exponent : Int) : Binary64 :=
  if digits = 0 then zero negative
  else
    let point : Int := ((Nat.toDigits 10 digits).length : Int) + exponent
    if 311 ≤ point then .infinite negative
    else if point ≤ -331 then zero negative
    else if 0 ≤ exponent then ofRatio negative (digits * Nat.pow 10 exponent.toNat) 1
    else ofRatio negative digits (Nat.pow 10 (-exponent).toNat)

/-- The number is neither infinite nor NaN. -/
def isFinite : Binary64 → Bool
  | .finite .. => true
  | _ => false

/-- Equality of numbers, except that NaN equals itself: the two zeros are one number. -/
def same : Binary64 → Binary64 → Bool
  | .finite _ 0 _, .finite _ 0 _ => true
  | a, b => a = b

/-! ## Reading -/

/-- The digits in front, as a number, how many they are, and the rest. -/
def readDigits (start : Nat) (cs : List Char) : Nat × Nat × List Char :=
  let digits := cs.takeWhile Char.isDigit
  (digits.foldl (fun n c => n * 10 + (c.toNat - '0'.toNat)) start, digits.length,
    cs.dropWhile Char.isDigit)

/-- The exponent at the end of a decimal, zero if there is none. -/
def readExponent : List Char → Option Int
  | [] => some 0
  | c :: cs =>
    if c = 'e' || c = 'E' then
      let (negative, cs) :=
        match cs with
        | '-' :: cs => (true, cs)
        | '+' :: cs => (false, cs)
        | cs => (false, cs)
      match readDigits 0 cs with
      | (n, _ + 1, []) => some (if negative then -(n : Int) else n)
      | _ => none
    else none

/-- Reads a decimal without sign: digits with at most one point among them, at least one digit, and
an optional exponent. -/
def readUnsigned (negative : Bool) (cs : List Char) : Option Binary64 :=
  let (whole, wholeCount, rest) := readDigits 0 cs
  let (digits, fractionCount, rest) :=
    match rest with
    | '.' :: rest => readDigits whole rest
    | rest => (whole, 0, rest)
  if wholeCount + fractionCount = 0 then none
  else (readExponent rest).map fun exponent =>
    ofDecimal negative digits (exponent - fractionCount)

/-- Reads a decimal with an optional sign. -/
def readDecimal : List Char → Option Binary64
  | '-' :: cs => readUnsigned true cs
  | '+' :: cs => readUnsigned false cs
  | cs => readUnsigned false cs

end Binary64

end OrderedEnv
