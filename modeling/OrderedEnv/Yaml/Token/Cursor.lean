import OrderedEnv.Yaml.Character

/-!
# A place in the text

A cursor holds the text that is left and tells where in the whole text it starts. The operations
that take a line break are apart from those that do not, since only the former start a new line.
-/

namespace OrderedEnv.Yaml

/-- A place in the text of a document. -/
structure Cursor where
  /-- The text from here on. -/
  rest : List Char
  /-- How many characters stand before. -/
  index : Nat := 0
  /-- How many lines end before. -/
  line : Nat := 0
  /-- How many characters stand before on the same line. -/
  column : Nat := 0
  deriving Repr

namespace Cursor

/-- The next character. -/
def next (c : Cursor) : Option Char := c.rest.head?

/-- The character behind the next `n` ones. -/
def ahead (c : Cursor) (n : Nat) : Option Char := c.rest[n]?

/-- Takes `n` characters, none of them a line break. -/
def advance (c : Cursor) (n : Nat) : Cursor :=
  { c with rest := c.rest.drop n, index := c.index + n, column := c.column + n }

/-- Takes the characters that satisfy `p`, none of them a line break. -/
def takeWhile (c : Cursor) (p : Char → Bool) : List Char × Cursor :=
  let taken := c.rest.takeWhile p
  (taken, c.advance taken.length)

/-- Leaves out the characters that satisfy `p`, none of them a line break. -/
def dropWhile (c : Cursor) (p : Char → Bool) : Cursor := (c.takeWhile p).2

/-- Leaves out the rest of the line. -/
def dropLine (c : Cursor) : Cursor := c.dropWhile (!isBreak ·)

/-- Takes a line break, and tells how it counts in a scalar: separators of lines and paragraphs
stay what they are, all others are one line feed. -/
def takeBreak (c : Cursor) : Option Char × Cursor :=
  match c.rest with
  | '\r' :: '\n' :: rest => (some '\n', ⟨rest, c.index + 2, c.line + 1, 0⟩)
  | b :: rest =>
    (some (if b = '\u2028' || b = '\u2029' then b else '\n'), ⟨rest, c.index + 1, c.line + 1, 0⟩)
  | [] => (none, c)

/-- Leaves out a line break, if there is one. -/
def dropBreak (c : Cursor) : Cursor := if c.next.any isBreak then c.takeBreak.2 else c

/-- The line starts with the mark, three times, and nothing that would make it a longer word. -/
def isMarker (c : Cursor) (mark : Char) : Bool :=
  c.column = 0 && c.rest.take 3 = [mark, mark, mark] && endsWord (c.ahead 3)

/-- The line starts or ends a document. -/
def isDocumentMarker (c : Cursor) : Bool := c.isMarker '-' || c.isMarker '.'

end Cursor

end OrderedEnv.Yaml
