import OrderedEnv.Text.Printable
import OrderedEnv.Text.Utf8

/-!
# Quoted bytes

How a name that is not UTF-8 is shown in a message: between double quotes, with escapes for the
quote, the backslash and the characters that cannot be shown, and with two hexadecimal digits for
each byte that encodes no character.
-/

namespace OrderedEnv.Text

/-- The digits of a number in base 16, of the given case. -/
def hexDigits (upper : Bool) (n : Nat) : List Char :=
  let digits := Nat.toDigits 16 n
  if upper then digits.map Char.toUpper else digits

/-- One byte as two hexadecimal digits. -/
def hexByte (b : UInt8) : List Char :=
  let digits := hexDigits true b.toNat
  if digits.length < 2 then '0' :: digits else digits

/-- A character between double quotes. -/
def quotedChar (c : Char) : List Char :=
  if c = Char.ofNat 0 then ['\\', '0']
  else if c = '\t' then ['\\', 't']
  else if c = '\n' then ['\\', 'n']
  else if c = '\r' then ['\\', 'r']
  else if c = '"' || c = '\\' then ['\\', c]
  else if isShown c then [c]
  else '\\' :: 'u' :: '{' :: hexDigits false c.toNat ++ ['}']

/-- A character or a broken stretch between double quotes. -/
def Utf8Unit.quoted : Utf8Unit → List Char
  | .char c => quotedChar c
  | .broken bytes => bytes.flatMap fun b => '\\' :: 'x' :: hexByte b

/-- Bytes between double quotes. -/
def quotedBytes (bytes : ByteArray) : String :=
  String.ofList ('"' :: (utf8Units bytes.toList).flatMap Utf8Unit.quoted ++ ['"'])

end OrderedEnv.Text
