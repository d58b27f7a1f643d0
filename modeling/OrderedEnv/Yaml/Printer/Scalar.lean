import OrderedEnv.Yaml.Character
import OrderedEnv.Yaml.Printer.Page
import OrderedEnv.Yaml.Scalar

/-!
# How text is written

Text with a line feed is written as a block of lines, and all other text plainly. Text that would be
read as something else, or would not come back as it is, goes between single quotes, and text that
holds a character that cannot be shown goes between double quotes, with escapes.
-/

namespace OrderedEnv.Yaml.Printer

/-! ## What text holds -/

/-- The character is written as it is. -/
def isPrintable (c : Char) : Bool :=
  let n := c.toNat
  n = 0x0A || (0x20 ≤ n && n ≤ 0x7E) || (0xA0 ≤ n && n ≤ 0xD7FF) ||
    (0xE000 ≤ n && n ≤ 0xFFFD && n ≠ 0xFEFF) || 0x10000 ≤ n

/-- Two characters that satisfy `p` and `q` follow each other. -/
def hasPair (p q : Char → Bool) : List Char → Bool
  | a :: b :: rest => (p a && q b) || hasPair p q (b :: rest)
  | _ => false

/-- The first or the last character satisfies `p`. -/
def atAnEnd (p : Char → Bool) (cs : List Char) : Bool := cs.head?.any p || cs.getLast?.any p

/-- A `: ` stands in the text, or a `:` at its end. -/
def hasColon : List Char → Bool
  | [] => false
  | c :: rest => (c = ':' && endsWord rest.head?) || hasColon rest

/-- The text holds something that has a meaning of its own outside quotes. -/
def hasIndicator (cs : List Char) : Bool :=
  let starts (mark : Char) := cs.take 3 = [mark, mark, mark]
  starts '-' || starts '.' || hasColon cs ||
    cs.head?.any (fun c => ("#,[]\x7b\x7d&*!|>'\"%@`").contains c) ||
    (cs.head?.any (fun c => c = '-' || c = '?') && endsWord (cs.drop 1).head?) ||
    hasPair isBlankOrBreak (· = '#') cs

/-- Text that no style but double quotes can hold. -/
def needsEscapes (cs : List Char) : Bool :=
  cs.any (!isPrintable ·) || hasPair (· = ' ') isBreak cs

/-- The text holds a line break. -/
def isMultiline (cs : List Char) : Bool := cs.any isBreak

/-! ## Styles -/

/-- A way to write text. -/
inductive Style where
  | plain
  | single
  | double
  | literal
  deriving DecidableEq, Repr

/-- Plain text would be read as something else, or is digits that look like a number. -/
def isAmbiguous (text : String) : Bool :=
  Scalar.reading text ≠ .text || Scalar.hasLeadingZero text.toList

/-- The style without regard to what the style can hold. -/
def preferred (text : String) : Style :=
  if text.contains '\n' then .literal
  else if isAmbiguous text then .single
  else .plain

/-- Whether a style can hold the text. -/
def Style.holds (cs : List Char) : Style → Bool
  | .plain =>
    !needsEscapes cs && !isMultiline cs && !hasIndicator cs &&
      !atAnEnd (fun c => c = ' ' || isBreak c) cs
  | .single => !needsEscapes cs && !hasPair isBreak (· = ' ') cs
  | .literal => !needsEscapes cs && cs.getLast? ≠ some ' '
  | .double => true

/-- The style of a text. -/
def style (text : String) : Style :=
  let cs := text.toList
  match preferred text with
  | .literal => if Style.literal.holds cs then .literal else .double
  | .plain =>
    if Style.plain.holds cs then .plain
    else if Style.single.holds cs then .single
    else .double
  | _ => if Style.single.holds cs then .single else .double

/-! ## Quotes -/

/-- Writes text between single quotes, behind the opening one. A line break is written as it is,
and the next line is indented. `broken` tells that a line break was written last. -/
def singleBody (column : Nat) (broken : Bool) : List Char → Page → Page
  | [], p => if broken then p.indentTo column else p
  | c :: rest, p =>
    if isBreak c then singleBody column true rest { p.putBreak c with indented := true }
    else if c = ' ' then singleBody column broken rest (p.put c)
    else
      let p := if broken then p.indentTo column else p
      let p := if c = '\'' then p.put '\'' else p
      singleBody column false rest { p.put c with indented := false }

/-- The digits of a number in base 16, at least `width` of them. -/
def hexDigits (width n : Nat) : List Char :=
  let digits := (Nat.toDigits 16 n).map Char.toUpper
  List.replicate (width - digits.length) '0' ++ digits

/-- The letters of the escapes that need no digits. -/
def escapeLetters : List (Nat × Char) := [(0, '0'), (7, 'a'), (8, 'b'), (9, 't'), (10, 'n'),
  (11, 'v'), (12, 'f'), (13, 'r'), (27, 'e'), (34, '"'), (92, '\\'), (0x85, 'N'), (0xA0, '_'), (0x2028, 'L'),
  (0x2029, 'P')]

/-- A character between double quotes. -/
def escaped (c : Char) : List Char :=
  if isPrintable c && !isBreak c && c ≠ '"' && c ≠ '\\' then [c]
  else
    match escapeLetters.lookup c.toNat with
    | some letter => ['\\', letter]
    | none =>
      if c.toNat ≤ 0xFF then '\\' :: 'x' :: hexDigits 2 c.toNat
      else if c.toNat ≤ 0xFFFF then '\\' :: 'u' :: hexDigits 4 c.toNat
      else '\\' :: 'U' :: hexDigits 8 c.toNat

/-! ## Blocks -/

/-- The signs on the first line of a block: the depth of its indentation, which is told where the
text starts with a space or a line break, and what becomes of the line breaks at its end. -/
def blockHints (cs : List Char) : List Char :=
  let indentation := if cs.head?.any (fun c => c = ' ' || isBreak c) then ['2'] else []
  let chomping :=
    match cs.reverse with
    | [] => ['-']
    | [c] => if isBreak c then ['+'] else ['-']
    | c :: d :: _ => if !isBreak c then ['-'] else if isBreak d then ['+'] else []
  indentation ++ chomping

/-- Writes the lines of a block. `broken` tells that a line break was written last. -/
def blockBody (column : Nat) (broken : Bool) : List Char → Page → Page
  | [], p => p
  | c :: rest, p =>
    if isBreak c then blockBody column true rest { p.putBreak c with indented := true }
    else
      let p := if broken then p.indentTo column else p
      blockBody column false rest { p.put c with indented := false }

/-! ## Text -/

/-- Writes text. Lines behind its first one start at the given column. -/
def writeText (column : Nat) (text : String) (p : Page) : Page :=
  let cs := text.toList
  match style text with
  | .plain => if cs.isEmpty then p else p.word cs
  | .single => (singleBody column false cs (p.word ['\''])).append ['\'']
  | .double => (p.word ['"']).append (cs.flatMap escaped ++ ['"'])
  | .literal =>
    let p := (p.word ('|' :: blockHints cs)).putBreak '\n'
    blockBody column true cs { p with spaced := true, indented := true }

end OrderedEnv.Yaml.Printer
