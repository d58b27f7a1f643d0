import OrderedEnv.Decimal.Binary64

/-!
# The shortest decimal of a binary number

`shortest` gives the decimal with the fewest digits that is read back as the same number, the
nearest of those, and the one with an even last digit where two are equally near. `Binary64.text`
lays it out.

All decimals between the two midpoints to the neighbouring numbers are read back as the number, and
the midpoints too if the mantissa is even. For one digit, two digits and so on, the two decimals of
that many digits next to the number are tried; seventeen digits always suffice.
-/

namespace OrderedEnv

/-- The decimal `digits * 10 ^ exponent`. -/
structure Decimal where
  digits : Nat
  exponent : Int
  deriving DecidableEq, Repr

namespace Decimal

/-- The same decimal without zeros at the end of its digits. -/
def strip : Nat → Nat → Int → Decimal
  | 0, digits, exponent => ⟨digits, exponent⟩
  | fuel + 1, digits, exponent =>
    if digits ≠ 0 && digits % 10 = 0 then strip fuel (digits / 10) (exponent + 1)
    else ⟨digits, exponent⟩

end Decimal

namespace Binary64

/-- A number, and the ends of the interval of decimals that are read back as it, all three over the
denominator `den`. -/
structure Interval where
  low : Nat
  value : Nat
  high : Nat
  den : Nat
  closed : Bool
  deriving Repr

/-- The decimals that are read back as `mantissa * 2 ^ exponent`. Below the least mantissa of an
exponent the neighbour is half as far away. -/
def interval (mantissa : Nat) (exponent : Int) : Interval :=
  let below := if mantissa = Nat.pow 2 52 && minExponent < exponent then 1 else 2
  let scale := Nat.pow 2 (exponent - 2).toNat
  { low := (4 * mantissa - below) * scale
    value := 4 * mantissa * scale
    high := (4 * mantissa + 2) * scale
    den := Nat.pow 2 (2 - exponent).toNat
    closed := mantissa % 2 = 0 }

/-- The decimal `digits * num / den` lies in the interval. -/
def Interval.contains (i : Interval) (digits num den : Nat) : Bool :=
  let x := digits * num * i.den
  if i.closed then i.low * den ≤ x && x ≤ i.high * den else i.low * den < x && x < i.high * den

/-- The exponent of the first digit: `10 ^ e ≤ value < 10 ^ (e + 1)`. -/
def Interval.firstExponent (i : Interval) : Int :=
  if i.den ≤ i.value then ((Nat.toDigits 10 (i.value / i.den)).length : Int) - 1
  else
    let count := (Nat.toDigits 10 (i.den / i.value)).length
    if i.den ≤ i.value * Nat.pow 10 (count - 1) then -((count : Int) - 1) else -(count : Int)

/-- A decimal of the interval that has its last digit at `10 ^ exponent`, the nearest to the
value. -/
def Interval.decimalAt? (i : Interval) (exponent : Int) : Option Decimal :=
  let num := Nat.pow 10 exponent.toNat
  let den := Nat.pow 10 (-exponent).toNat
  let down := i.value * den / (num * i.den)
  let up := down + 1
  match i.contains down num den, i.contains up num den with
  | false, false => none
  | true, false => some ⟨down, exponent⟩
  | false, true => some ⟨up, exponent⟩
  | true, true =>
    let toDown := i.value * den - down * num * i.den
    let toUp := up * num * i.den - i.value * den
    some ⟨if toDown < toUp || (toDown = toUp && down % 2 = 0) then down else up, exponent⟩

/-- The shortest decimal that is read back as `mantissa * 2 ^ exponent`. -/
def shortest (mantissa : Nat) (exponent : Int) : Decimal :=
  let i := interval mantissa exponent
  let first := i.firstExponent
  match (List.range 17).findSome? fun (n : Nat) => i.decimalAt? (first - n) with
  | some d => Decimal.strip 20 d.digits d.exponent
  | none => ⟨0, 0⟩

/-! ## Text -/

/-- How numbers are laid out. -/
structure Layout where
  /-- The greatest position of the point, counted from the first digit, for positional notation. -/
  maxPoint : Int
  /-- The least position of the point for positional notation. -/
  minPoint : Int
  /-- What is written behind a whole number. -/
  wholeSuffix : List Char
  exponentMark : List Char
  nan : String
  infinite : String
  negativeInfinite : String

/-- Whole numbers end in `.0`. Positional notation is used from `0.00001` up to sixteen digits in
front of the point. -/
def plainLayout : Layout where
  maxPoint := 16
  minPoint := -4
  wholeSuffix := ['.', '0']
  exponentMark := ['e']
  nan := ".nan"
  infinite := ".inf"
  negativeInfinite := "-.inf"

/-- Lays out the digits of a positive number. `point` is where the point stands, counted from the
first digit. -/
def Layout.positive (layout : Layout) (d : Decimal) : List Char :=
  let digits := Nat.toDigits 10 d.digits
  let point : Int := digits.length + d.exponent
  if layout.minPoint ≤ point && point ≤ layout.maxPoint then
    if 0 ≤ d.exponent then
      digits ++ List.replicate d.exponent.toNat '0' ++ layout.wholeSuffix
    else if 0 < point then digits.take point.toNat ++ '.' :: digits.drop point.toNat
    else '0' :: '.' :: List.replicate (-point).toNat '0' ++ digits
  else
    let mantissa := if digits.length = 1 then digits else digits.take 1 ++ '.' :: digits.drop 1
    mantissa ++ layout.exponentMark ++ (toString (point - 1)).toList

/-- The text of a number. -/
def Layout.text (layout : Layout) : Binary64 → String
  | .nan => layout.nan
  | .infinite negative => if negative then layout.negativeInfinite else layout.infinite
  | .finite negative mantissa exponent =>
    let digits :=
      if mantissa = 0 then '0' :: layout.wholeSuffix
      else layout.positive (shortest mantissa exponent)
    String.ofList (if negative then '-' :: digits else digits)

/-- The text of a number in documents and messages. -/
def text : Binary64 → String := plainLayout.text

end Binary64

end OrderedEnv
