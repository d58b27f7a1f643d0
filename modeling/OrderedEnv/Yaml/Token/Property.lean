import OrderedEnv.Yaml.Error
import OrderedEnv.Yaml.Token
import OrderedEnv.Yaml.Token.Cursor
import OrderedEnv.Yaml.Token.Quoted

/-!
# Anchors, tags and directives

The tokens that say something about a node or a document and hold no content. A tag is a handle,
which a directive expands, and a suffix. In a suffix and in the expansion of a handle, `%` and two
hexadecimal digits stand for one byte.
-/

namespace OrderedEnv.Yaml.Property

/-! ## Anchors -/

/-- Takes the name of an anchor or alias, behind its `&` or `*`. -/
def takeName (c : Cursor) : Except ReadError (String × Cursor) :=
  let (name, c) := c.takeWhile isNameChar
  if !name.isEmpty && (endsWord c.next || c.next.any (("?:,]\x7d%@`").contains ·)) then
    .ok (String.ofList name, c)
  else .error .badAnchor

/-! ## Tags -/

/-- How many bytes a character of UTF-8 has, by its first one. -/
def width? (first : Nat) : Option Nat :=
  if first < 0x80 then some 1
  else if first < 0xC0 then none
  else if first < 0xE0 then some 2
  else if first < 0xF0 then some 3
  else if first < 0xF8 then some 4
  else none

/-- Reads a `%` and two digits. -/
def escapedByte? : List Char → Option Nat
  | '%' :: a :: b :: _ => Quoted.hexNumber? [a, b]
  | _ => none

/-- Reads `count` more escaped bytes, all of which go on with a character. -/
def escapedTail? : Nat → List Char → Option (List UInt8)
  | 0, _ => some []
  | count + 1, cs => do
    let b ← escapedByte? cs
    if b / 64 ≠ 2 then none
    return UInt8.ofNat b :: (← escapedTail? count (cs.drop 3))

/-- Reads the escaped bytes of one character. -/
def escapedChar? (cs : List Char) : Option (List UInt8) := do
  let first ← escapedByte? cs
  let width ← width? first
  return UInt8.ofNat first :: (← escapedTail? (width - 1) (cs.drop 3))

/-- Takes the characters of a tag, put before `done`, last byte first. `fuel` bounds their number. -/
def takeBytes (wide : Bool) : Nat → Cursor → List UInt8 → Except ReadError (List UInt8 × Cursor)
  | 0, c, done => .ok (done, c)
  | fuel + 1, c, done =>
    match c.next with
    | some '%' =>
      match escapedChar? c.rest with
      | some bytes => takeBytes wide fuel (c.advance (3 * bytes.length)) (bytes.reverse ++ done)
      | none => .error .badTag
    | some char =>
      if isTagChar wide char then takeBytes wide fuel (c.advance 1) (char.toUInt8 :: done)
      else .ok (done, c)
    | none => .ok (done, c)

/-- Takes the bytes of a tag that must not be empty, behind those that were read already. -/
def takeSuffix (wide : Bool) (start : List Char) (c : Cursor) :
    Except ReadError (List UInt8 × Cursor) := do
  let (done, c) ← takeBytes wide c.rest.length c []
  if start.isEmpty && done.isEmpty then throw .badTag
  return ((start.drop 1).map Char.toUInt8 ++ done.reverse, c)

/-- Takes a handle: a `!`, a name, and perhaps one more `!`. -/
def takeHandle (c : Cursor) : Except ReadError (List Char × Cursor) := do
  if c.next ≠ some '!' then throw .badTag
  let (name, c) := (c.advance 1).takeWhile isNameChar
  if c.next = some '!' then return ('!' :: name ++ ['!'], c.advance 1)
  return ('!' :: name, c)

/-- The text is a handle with a `!` at both ends, and not only the start of a tag. -/
def isHandle (cs : List Char) : Bool := 1 < cs.length && cs.getLast? = some '!'

/-- Takes a tag, at its `!`. -/
def takeTag (inFlow : Bool) (c : Cursor) : Except ReadError (Token × Cursor) := do
  let (token, c) ←
    if c.ahead 1 = some '<' then do
      let (suffix, c) ← takeSuffix true [] (c.advance 2)
      if c.next ≠ some '>' then throw .badTag
      pure (Token.tag "" suffix, c.advance 1)
    else do
      let (handle, c) ← takeHandle c
      if isHandle handle then do
        let (suffix, c) ← takeSuffix false [] c
        pure (Token.tag (String.ofList handle) suffix, c)
      else do
        let (suffix, c) ← takeSuffix false handle c
        if suffix.isEmpty then pure (Token.tag "" ['!'.toUInt8], c)
        else pure (Token.tag "!" suffix, c)
  if endsWord c.next || (inFlow && c.next = some ',') then return (token, c)
  throw .badTag

/-! ## Directives -/

/-- Takes a number of at most nine digits. -/
def takeNumber (c : Cursor) : Except ReadError (Nat × Cursor) :=
  let (digits, c) := c.takeWhile Char.isDigit
  if digits.isEmpty || 9 < digits.length then .error .badDirective
  else .ok (digits.foldl (fun n d => n * 10 + (d.toNat - '0'.toNat)) 0, c)

/-- Takes the version behind `%YAML`. -/
def takeVersion (c : Cursor) : Except ReadError (Token × Cursor) := do
  let (major, c) ← takeNumber (c.dropWhile isBlankChar)
  if c.next ≠ some '.' then throw .badDirective
  let (minor, c) ← takeNumber (c.advance 1)
  return (.version major minor, c)

/-- Takes the handle behind `%TAG`, and what it stands for. -/
def takeTagDirective (c : Cursor) : Except ReadError (Token × Cursor) := do
  let (handle, c) ← takeHandle (c.dropWhile isBlankChar)
  if handle ≠ ['!'] && !isHandle handle then throw .badDirective
  if !c.next.any isBlankChar then throw .badDirective
  let (expansion, c) ← takeSuffix true [] (c.dropWhile isBlankChar)
  if !endsWord c.next then throw .badDirective
  return (.tagDirective (String.ofList handle) expansion, c)

/-- Takes a directive, at its `%`, with the rest of its line. -/
def takeDirective (c : Cursor) : Except ReadError (Token × Cursor) := do
  let (name, c) := (c.advance 1).takeWhile isNameChar
  if name.isEmpty || !endsWord c.next then throw .badDirective
  let (token, c) ←
    match String.ofList name with
    | "YAML" => takeVersion c
    | "TAG" => takeTagDirective c
    | _ => throw .badDirective
  let c := c.dropWhile isBlankChar
  let c := if c.next = some '#' then c.dropLine else c
  if !endsLine c.next then throw .badDirective
  return (token, c.dropBreak)

end OrderedEnv.Yaml.Property
