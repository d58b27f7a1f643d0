import OrderedEnv.Yaml.Token.Block
import OrderedEnv.Yaml.Token.Plain
import OrderedEnv.Yaml.Token.Property
import OrderedEnv.Yaml.Token.Quoted

/-!
# Cutting a text into tokens

`Token.ofText` reads a text from left to right. Two things make it more than a sequence of words.

* *Indentation.* `indents` holds the columns of the open block collections. A line that starts
  further to the left closes those that lie deeper.
* *Keys.* In `key: value` only the `:` tells that there was a key. So each token that may be a key
  is remembered with its place among the tokens, and the `:` puts the key token, and the token that
  opens the mapping, in front of it. A key fits on one line and has at most 1024 characters.

Every token but the last takes at least one character, so the length of the text bounds the number
of steps.
-/

namespace OrderedEnv.Yaml

/-- A token that may turn out to be a key. -/
structure PossibleKey where
  /-- Nothing but a key can stand here. -/
  required : Bool
  /-- How many tokens stand before it. -/
  position : Nat
  index : Nat
  line : Nat
  column : Nat
  deriving Repr

/-- The key is out of reach for a `:` at the cursor. -/
def PossibleKey.isStale (key : PossibleKey) (c : Cursor) : Bool :=
  key.line < c.line || key.index + 1024 < c.index

/-- What is known in the middle of a text. -/
structure Lexer where
  cursor : Cursor
  /-- The tokens so far, last one first. -/
  tokens : List Token := []
  /-- How many there are. -/
  count : Nat := 0
  /-- The columns of the open block collections, innermost first. -/
  indents : List Nat := []
  /-- The token of the innermost collection that may be a key. -/
  possibleKey : Option PossibleKey := none
  /-- The same for the collections around it. There is one for each open flow collection. -/
  outerKeys : List (Option PossibleKey) := []
  /-- A key may start here. -/
  keyAllowed : Bool := true

namespace Lexer

/-- One step of reading. -/
abbrev Step := Lexer → Except ReadError Lexer

/-- The cursor is in a flow collection. -/
def inFlow (l : Lexer) : Bool := !l.outerKeys.isEmpty

/-- One more than the column of the innermost block collection, zero outside all of them. -/
def base (l : Lexer) : Nat :=
  match l.indents with
  | [] => 0
  | column :: _ => column + 1

/-- Adds a token. -/
def emit (l : Lexer) (token : Token) : Lexer :=
  { l with tokens := token :: l.tokens, count := l.count + 1 }

/-- Inserts an element in front of the last `n` ones of a list that is kept last one first. -/
def insertBefore (a : α) : Nat → List α → List α
  | n + 1, b :: bs => b :: insertBefore a n bs
  | _, bs => a :: bs

/-- Adds a token at a place among the tokens. -/
def emitAt (l : Lexer) (position : Nat) (token : Token) : Lexer :=
  { l with tokens := insertBefore token (l.count - position) l.tokens, count := l.count + 1 }

/-! ## Keys -/

/-- Gives up the key of the innermost collection. -/
def forgetKey : Step := fun l =>
  if l.possibleKey.any (·.required) then .error .missingColon
  else .ok { l with possibleKey := none }

/-- Gives up a key that is out of reach. -/
def dropStale (c : Cursor) : Option PossibleKey → Except ReadError (Option PossibleKey)
  | some key =>
    if key.isStale c then if key.required then .error .missingColon else .ok none
    else .ok (some key)
  | none => .ok none

/-- Gives up all keys that are out of reach. -/
def forgetStale : Step := fun l => do
  let outerKeys ← l.outerKeys.mapM (dropStale l.cursor)
  let possibleKey ← dropStale l.cursor l.possibleKey
  return { l with possibleKey, outerKeys }

/-- Remembers that the next token may be a key. -/
def rememberKey : Step := fun l =>
  if !l.keyAllowed then .ok l
  else do
    let l ← l.forgetKey
    let c := l.cursor
    let required := !l.inFlow && l.indents.head? = some c.column
    return { l with possibleKey := some ⟨required, l.count, c.index, c.line, c.column⟩ }

/-- Says whether a key may start next. -/
def allowKey (allowed : Bool) (l : Lexer) : Lexer := { l with keyAllowed := allowed }

/-! ## Indentation -/

/-- Opens a block collection at a column, unless one is open there or deeper. Its token goes to the
given place among the tokens. -/
def openBlock (column position : Nat) (token : Token) (l : Lexer) : Lexer :=
  if l.inFlow || column < l.base then l
  else { l.emitAt position token with indents := column :: l.indents }

/-- Closes the block collections whose column is beyond `base`. -/
def closeColumns (base : Nat) : List Nat → Lexer → Lexer
  | [], l => { l with indents := [] }
  | column :: rest, l =>
    if base ≤ column then closeColumns base rest (l.emit .blockEnd)
    else { l with indents := column :: rest }

/-- Closes the block collections whose column is `base` or more. -/
def closeBlocks (base : Nat) (l : Lexer) : Lexer :=
  if l.inFlow then l else closeColumns base l.indents l

/-! ## The steps -/

/-- Takes the next character as a token. -/
def single (token : Token) (l : Lexer) : Lexer :=
  { l with cursor := l.cursor.advance 1 }.emit token

/-- Takes the white space and comments before the next token. A new line allows a key. A tab counts
as white space only where no key may start. `fuel` bounds the number of lines. -/
def skipGap : Nat → Lexer → Lexer
  | 0, l => l
  | fuel + 1, l =>
    let tabs := l.inFlow || !l.keyAllowed
    let c := l.cursor.dropWhile fun c => c = ' ' || (tabs && c = '\t')
    let c := if c.next = some '#' then c.dropLine else c
    if c.next.any isBreak then
      skipGap fuel { l with cursor := c.takeBreak.2, keyAllowed := !l.inFlow || l.keyAllowed }
    else { l with cursor := c }

/-- A directive. -/
def directive : Step := fun l => do
  let l ← (l.closeBlocks 0).forgetKey
  let (token, cursor) ← Property.takeDirective l.cursor
  return { l with cursor, keyAllowed := false }.emit token

/-- The start or end of a document. -/
def documentMarker (token : Token) : Step := fun l => do
  let l ← (l.closeBlocks 0).forgetKey
  return { l with cursor := l.cursor.advance 3, keyAllowed := false }.emit token

/-- The start of a flow collection. -/
def flowStart (token : Token) : Step := fun l => do
  let l ← l.rememberKey
  let l := { l with possibleKey := none, outerKeys := l.possibleKey :: l.outerKeys }
  return (l.allowKey true).single token

/-- The end of a flow collection. -/
def flowEnd (token : Token) : Step := fun l => do
  let l ← l.forgetKey
  let l :=
    match l.outerKeys with
    | [] => l
    | key :: rest => { l with possibleKey := key, outerKeys := rest }
  return (l.allowKey false).single token

/-- A comma in a flow collection. -/
def flowEntry : Step := fun l => do
  return ((← l.forgetKey).allowKey true).single .flowEntry

/-- Opens a block collection here, behind the tokens so far. -/
def openHere (token : Token) : Step := fun l =>
  if l.inFlow then .ok l
  else if l.keyAllowed then .ok (l.openBlock l.cursor.column l.count token)
  else .error .misplacedIndicator

/-- The dash before an item. -/
def blockEntry : Step := fun l => do
  let l ← l.openHere .blockSequenceStart
  return ((← l.forgetKey).allowKey true).single .blockEntry

/-- The question mark before a key. -/
def key : Step := fun l => do
  let l ← l.openHere .blockMappingStart
  return ((← l.forgetKey).allowKey (!l.inFlow)).single .key

/-- The colon before a value. -/
def value : Step := fun l =>
  match l.possibleKey with
  | some key =>
    let l := (l.emitAt key.position .key).openBlock key.column key.position .blockMappingStart
    .ok (({ l with possibleKey := none }.allowKey false).single .value)
  | none => do
    let l ← l.openHere .blockMappingStart
    return (l.allowKey (!l.inFlow)).single .value

/-- A token that may be a key, read by `take`. -/
def content (take : Lexer → Except ReadError (Token × Cursor)) : Step := fun l => do
  let l ← l.rememberKey
  let (token, cursor) ← take l
  return { l with cursor, keyAllowed := false }.emit token

/-- An alias. -/
def reference : Step := content fun l => do
  let (name, c) ← Property.takeName (l.cursor.advance 1)
  return (.reference name, c)

/-- An anchor. -/
def anchor : Step := content fun l => do
  let (name, c) ← Property.takeName (l.cursor.advance 1)
  return (.anchor name, c)

/-- A tag. -/
def tag : Step := content fun l => Property.takeTag l.inFlow l.cursor

/-- A quoted scalar. -/
def quoted (quote : Char) : Step := content fun l => do
  let (text, c) ← Quoted.take quote l.cursor
  return (.scalar text false, c)

/-- A block scalar. -/
def block (folded : Bool) : Step := fun l => do
  let l ← l.forgetKey
  let (text, cursor) ← Block.take folded l.base (l.cursor.advance 1)
  return { l with cursor, keyAllowed := true }.emit (.scalar text false)

/-- A plain scalar. When it was followed by a line break, a key may stand behind it. -/
def plain : Step := fun l => do
  let l ← l.rememberKey
  let (text, broken, cursor) ← Plain.take l.inFlow l.base l.cursor
  return { l with cursor, keyAllowed := broken }.emit (.scalar text true)

/-- The characters start a plain scalar. -/
def startsPlain (l : Lexer) (c : Char) : Bool :=
  let next := l.cursor.ahead 1
  (!isBlankOrBreak c && !isIndicator c) || (c = '-' && !next.any isBlankChar) ||
    (!l.inFlow && (c = '?' || c = ':') && !endsWord next)

/-- Takes the next token, whose first character is `c`. -/
def token (l : Lexer) (c : Char) : Except ReadError Lexer :=
  let cursor := l.cursor
  let separated := endsWord (cursor.ahead 1)
  if cursor.column = 0 && c = '%' then l.directive
  else if cursor.isMarker '-' then l.documentMarker .documentStart
  else if cursor.isMarker '.' then l.documentMarker .documentEnd
  else if c = '[' then l.flowStart .flowSequenceStart
  else if c = '\x7b' then l.flowStart .flowMappingStart
  else if c = ']' then l.flowEnd .flowSequenceEnd
  else if c = '\x7d' then l.flowEnd .flowMappingEnd
  else if c = ',' then l.flowEntry
  else if c = '-' && separated then l.blockEntry
  else if c = '?' && (l.inFlow || separated) then l.key
  else if c = ':' && (l.inFlow || separated) then l.value
  else if c = '*' then l.reference
  else if c = '&' then l.anchor
  else if c = '!' then l.tag
  else if c = '|' && !l.inFlow then l.block false
  else if c = '>' && !l.inFlow then l.block true
  else if c = '\'' || c = '"' then l.quoted c
  else if l.startsPlain c then l.plain
  else .error .strayCharacter

/-- Takes all tokens. `fuel` is more than the number of characters. -/
def run : Nat → Lexer → Except ReadError (List Token)
  | 0, l => .ok l.tokens.reverse
  | fuel + 1, l => do
    let l ← (l.skipGap (fuel + 1)).forgetStale
    match l.cursor.next with
    | none =>
      let l ← (l.closeBlocks 0).forgetKey
      return l.tokens.reverse
    | some c => run fuel (← (l.closeBlocks (l.cursor.column + 1)).token c)

end Lexer

/-- The tokens of a text. A mark for the order of bytes at its start is left out. -/
def Token.ofText (text : List Char) : Except ReadError (List Token) :=
  if text.all isAllowed then
    let start : Cursor := { rest := text }
    let cursor := if start.next = some byteOrderMark then start.advance 1 else start
    Lexer.run (text.length + 1) { cursor }
  else .error .forbiddenCharacter

end OrderedEnv.Yaml
