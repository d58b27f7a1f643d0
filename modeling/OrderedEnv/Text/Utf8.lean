/-!
# Bytes that may not be UTF-8

The operating system hands over names, values and file contents as bytes. `units` cuts bytes into
the characters they encode and the broken stretches between them.

A broken stretch is as long as it can be while it is still the start of some encoded character, and
at least one byte: `E2 82` followed by `41` is one stretch of two bytes and then `A`.

Whole texts go through `String.fromUTF8?`; the cutting here serves only to show broken bytes.
-/

namespace OrderedEnv.Text

/-- Bytes are compared one by one. -/
instance decidableEqByteArray : DecidableEq ByteArray := ByteArray.instDecidableEq

/-- A character, or bytes that encode none. -/
inductive Utf8Unit where
  | char (c : Char)
  | broken (bytes : List UInt8)
  deriving DecidableEq, Repr

/-- How many bytes follow a first byte, and the least and greatest second byte. -/
def utf8Lead (b : UInt8) : Option (Nat × UInt8 × UInt8) :=
  if b < 0x80 then some (0, 0, 0)
  else if b < 0xC2 then none
  else if b < 0xE0 then some (1, 0x80, 0xBF)
  else if b = 0xE0 then some (2, 0xA0, 0xBF)
  else if b = 0xED then some (2, 0x80, 0x9F)
  else if b < 0xF0 then some (2, 0x80, 0xBF)
  else if b = 0xF0 then some (3, 0x90, 0xBF)
  else if b < 0xF4 then some (3, 0x80, 0xBF)
  else if b = 0xF4 then some (3, 0x80, 0x8F)
  else none

/-- The bytes behind the first one that may belong to its character, `count` of them at most. -/
def utf8Tail : Nat → UInt8 → UInt8 → List UInt8 → List UInt8
  | 0, _, _, _ => []
  | _ + 1, _, _, [] => []
  | count + 1, low, high, b :: bs =>
    if low ≤ b && b ≤ high then b :: utf8Tail count 0x80 0xBF bs else []

/-- The character with a first byte and all the bytes behind it. -/
def utf8Char (first : UInt8) (tail : List UInt8) : Char :=
  let start :=
    match tail.length with
    | 0 => first.toNat
    | 1 => first.toNat - 0xC0
    | 2 => first.toNat - 0xE0
    | _ => first.toNat - 0xF0
  Char.ofNat (tail.foldl (fun n b => n * 64 + (b.toNat - 0x80)) start)

/-- Cuts bytes into characters and broken stretches. -/
def utf8Units : List UInt8 → List Utf8Unit
  | [] => []
  | b :: bs =>
    match utf8Lead b with
    | none => .broken [b] :: utf8Units bs
    | some (count, low, high) =>
      let tail := utf8Tail count low high bs
      let unit := if tail.length = count then .char (utf8Char b tail) else .broken (b :: tail)
      unit :: utf8Units (bs.drop tail.length)
termination_by bs => bs.length
decreasing_by
  · simp
  · simp only [List.length_drop, List.length_cons]
    omega

/-- The text of bytes, with one replacement character for each broken stretch. -/
def lossyText (bytes : ByteArray) : String :=
  match String.fromUTF8? bytes with
  | some text => text
  | none =>
    String.ofList <| (utf8Units bytes.toList).map fun
      | .char c => c
      | .broken _ => Char.ofNat 0xFFFD

end OrderedEnv.Text
