/-!
# The page a document is written on

A page holds what was written so far, and what decides whether the next thing needs a space or a new
line in front of it.
-/

namespace OrderedEnv.Yaml

/-- A page in the middle of being written. -/
structure Page where
  /-- What was written, last character first. -/
  written : List Char := []
  /-- How many characters the last line holds. -/
  column : Nat := 0
  /-- No space is needed before the next word. -/
  spaced : Bool := true
  /-- The last line holds nothing but indentation and the indicators of collections. -/
  indented : Bool := true

namespace Page

/-- Writes one character, which is no line break. -/
def put (p : Page) (c : Char) : Page := { p with written := c :: p.written, column := p.column + 1 }

/-- Writes characters, none of which is a line break. -/
def putAll (p : Page) (cs : List Char) : Page := cs.foldl put p

/-- Writes a line break. -/
def putBreak (p : Page) (c : Char) : Page := { p with written := c :: p.written, column := 0 }

/-- Writes a space, if one is needed. -/
def space (p : Page) : Page := if p.spaced then p else p.put ' '

/-- Goes to a column, on a new line unless the last one is still open for it. -/
def indentTo (p : Page) (column : Nat) : Page :=
  let p :=
    if !p.indented || column < p.column || (p.column = column && !p.spaced) then p.putBreak '\n'
    else p
  { p.putAll (List.replicate (column - p.column) ' ') with spaced := true, indented := true }

/-- Writes the indicator of an item, of a key, or of the value of a key on a line of its own. -/
def bullet (p : Page) (c : Char) : Page := { p.space.put c with spaced := false }

/-- Writes something that is part of a line, without a space in front. -/
def append (p : Page) (cs : List Char) : Page :=
  { p.putAll cs with spaced := false, indented := false }

/-- Writes a word. -/
def word (p : Page) (cs : List Char) : Page := p.space.append cs

/-- The text that was written. -/
def text (p : Page) : String := String.ofList p.written.reverse

end Page

end OrderedEnv.Yaml
