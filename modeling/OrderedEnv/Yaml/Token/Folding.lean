import OrderedEnv.Yaml.Error
import OrderedEnv.Yaml.Token.Cursor

/-!
# Line folding

A scalar may go on over several lines. White space inside a line stays what it is. White space with
a line break in it is folded: blanks vanish, one break alone becomes a space, and of several breaks
the first vanishes. A first break that is a separator of lines or paragraphs is kept instead.
-/

namespace OrderedEnv.Yaml

/-- The white space between two words of a scalar. -/
inductive Gap where
  /-- White space without a line break, last character first. -/
  | spaces (reversed : List Char)
  /-- White space with a line break: the first one, unless it was written with an escape, and the
  others, last one first. -/
  | lines (first : Option Char) (reversed : List Char)
  deriving Repr

namespace Gap

/-- No white space. -/
def none : Gap := .spaces []

/-- The gap holds a line break. -/
def hasBreak : Gap → Bool
  | .spaces _ => false
  | .lines _ _ => true

/-- A gap with one more space or tab. -/
def addBlank (c : Char) : Gap → Gap
  | .spaces reversed => .spaces (c :: reversed)
  | gap => gap

/-- A gap with one more line break. -/
def addBreak (b : Option Char) : Gap → Gap
  | .spaces _ => .lines b []
  | .lines first reversed => .lines first (b.toList ++ reversed)

/-- What a gap leaves in the text of a scalar. -/
def fold : Gap → List Char
  | .spaces reversed => reversed.reverse
  | .lines (some '\n') [] => [' ']
  | .lines (some '\n') reversed => reversed.reverse
  | .lines first reversed => first.toList ++ reversed.reverse

/-- Takes white space. Once a line is broken, a tab before column `indent` is an error. -/
def take (indent : Nat) : Nat → Cursor → Gap → Except ReadError (Gap × Cursor)
  | 0, c, gap => .ok (gap, c)
  | fuel + 1, c, gap =>
    match c.next with
    | some char =>
      if isBlankChar char then
        if gap.hasBreak && char = '\t' && c.column < indent then .error .tabInIndentation
        else take indent fuel (c.advance 1) (gap.addBlank char)
      else if isBreak char then
        let (b, c) := c.takeBreak
        take indent fuel c (gap.addBreak b)
      else .ok (gap, c)
    | Option.none => .ok (gap, c)

end Gap

end OrderedEnv.Yaml
