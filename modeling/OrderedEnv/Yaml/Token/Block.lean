import OrderedEnv.Yaml.Error
import OrderedEnv.Yaml.Token.Cursor

/-!
# Block scalars

A block scalar starts with `|`, which keeps its lines, or `>`, which folds them. The first line may
tell how deep the others are indented, and what becomes of the line breaks at the end.
-/

namespace OrderedEnv.Yaml.Block

/-- What becomes of the line breaks at the end of a block scalar. -/
inductive Chomping where
  /-- None is kept. -/
  | strip
  /-- One is kept. -/
  | clip
  /-- All are kept. -/
  | keep
  deriving DecidableEq, Repr

/-- The first line of a block scalar. -/
structure Header where
  chomping : Chomping := .clip
  /-- How much deeper than its collection the scalar is indented, zero if that is not told. -/
  increment : Nat := 0
  deriving Repr

/-- Takes the sign that tells about the line breaks at the end. -/
def takeChomping (c : Cursor) : Option Chomping × Cursor :=
  match c.next with
  | some '+' => (some .keep, c.advance 1)
  | some '-' => (some .strip, c.advance 1)
  | _ => (none, c)

/-- Takes the digit that tells the indentation. -/
def takeIncrement (c : Cursor) : Except ReadError (Nat × Cursor) :=
  match c.next with
  | some d =>
    if d = '0' then .error .badBlockHeader
    else if d.isDigit then .ok (d.toNat - '0'.toNat, c.advance 1)
    else .ok (0, c)
  | none => .ok (0, c)

/-- Takes the first line, behind the `|` or `>`. -/
def takeHeader (c : Cursor) : Except ReadError (Header × Cursor) := do
  let (first, c) := takeChomping c
  let (increment, c) ← takeIncrement c
  let (second, c) :=
    if first.isNone && increment ≠ 0 then takeChomping c else (none, c)
  let c := c.dropWhile isBlankChar
  let c := if c.next = some '#' then c.dropLine else c
  if !endsLine c.next then throw .badBlockHeader
  return (⟨(first.or second).getD .clip, increment⟩, c.dropBreak)

/-- Takes blank lines and the indentation of the line behind them. An indentation of zero is one
that is not known yet. Yields the line breaks before `done`, last one first, and the greatest column
that was reached. -/
def takeBreaks (indent : Nat) :
    Nat → Cursor → List Char → Nat → Except ReadError (List Char × Nat × Cursor)
  | 0, c, done, deepest => .ok (done, deepest, c)
  | fuel + 1, c, done, deepest =>
    let spaces := (c.rest.takeWhile (· = ' ')).length
    let c := c.advance (if indent = 0 then spaces else min spaces (indent - c.column))
    let deepest := max deepest c.column
    if (indent = 0 || c.column < indent) && c.next = some '\t' then .error .tabInIndentation
    else if c.next.any isBreak then
      let (b, c) := c.takeBreak
      takeBreaks indent fuel c (b.toList ++ done) deepest
    else .ok (done, deepest, c)

/-- The text so far, and what is not yet settled. All text is kept last character first. -/
structure Progress where
  done : List Char := []
  /-- The break at the end of the last line, if there was one. -/
  lastBreak : Option Char := none
  /-- The breaks of the blank lines behind it. -/
  blankLines : List Char := []
  /-- The last line started with white space. -/
  afterBlank : Bool := false

/-- The text so far with the breaks before the next line. Folding takes away a line feed between two
lines that do not start with white space, and leaves a space if no blank line follows. -/
def Progress.settle (p : Progress) (folded : Bool) (startsBlank : Bool) : List Char :=
  if folded && p.lastBreak = some '\n' && !p.afterBlank && !startsBlank then
    if p.blankLines.isEmpty then ' ' :: p.done else p.blankLines ++ p.done
  else p.blankLines ++ p.lastBreak.toList ++ p.done

/-- Takes the lines of a block scalar. `fuel` is more than the number of characters. -/
def takeLines (folded : Bool) (indent : Nat) :
    Nat → Cursor → Progress → Except ReadError (Progress × Cursor)
  | 0, c, p => .ok (p, c)
  | fuel + 1, c, p => do
    if c.column ≠ indent || c.next.isNone then return (p, c)
    let startsBlank := c.next.any isBlankChar
    let done := p.settle folded startsBlank
    let (line, c) := c.takeWhile (!isBreak ·)
    let (lastBreak, c) := c.takeBreak
    let (blankLines, _, c) ← takeBreaks indent fuel c [] 0
    takeLines folded indent fuel c ⟨line.reverse ++ done, lastBreak, blankLines, startsBlank⟩

/-- Takes a block scalar, behind its `|` or `>`. `base` is one more than the column of the
collection around it, and zero outside all collections. -/
def take (folded : Bool) (base : Nat) (c : Cursor) : Except ReadError (String × Cursor) := do
  let (header, c) ← takeHeader c
  let given := if header.increment = 0 then 0 else base - 1 + header.increment
  let (blankLines, deepest, c) ← takeBreaks given (c.rest.length + 1) c [] 0
  let indent := if given = 0 then max deepest (max base 1) else given
  let (p, c) ← takeLines folded indent (c.rest.length + 1) c { blankLines }
  let done :=
    match header.chomping with
    | .strip => p.done
    | .clip => p.lastBreak.toList ++ p.done
    | .keep => p.blankLines ++ p.lastBreak.toList ++ p.done
  return (String.ofList done.reverse, c)

end OrderedEnv.Yaml.Block
