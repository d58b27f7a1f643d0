import OrderedEnv.Yaml.Token.Folding

/-!
# Quoted scalars

Between single quotes every character stands for itself, and a quote is written twice. Between
double quotes a backslash starts an escape, and a backslash at the end of a line takes the line
break away. Lines are folded in both.
-/

namespace OrderedEnv.Yaml.Quoted

/-- The value of a hexadecimal digit. -/
def hexValue? (c : Char) : Option Nat :=
  if c.isDigit then some (c.toNat - '0'.toNat)
  else if 'a' ≤ c && c ≤ 'f' then some (c.toNat - 'a'.toNat + 10)
  else if 'A' ≤ c && c ≤ 'F' then some (c.toNat - 'A'.toNat + 10)
  else none

/-- The number that hexadecimal digits stand for. -/
def hexNumber? (cs : List Char) : Option Nat :=
  cs.foldl (fun n c => do return (← n) * 16 + (← hexValue? c)) (some 0)

/-- The escapes of one letter, with what they stand for. -/
def letters : List (Char × Nat) := [('0', 0), ('a', 7), ('b', 8), ('t', 9), ('\t', 9), ('n', 10),
  ('v', 11), ('f', 12), ('r', 13), ('e', 27), (' ', 32), ('"', 34), ('/', 47), ('\\', 92),
  ('N', 0x85), ('_', 0xA0), ('L', 0x2028), ('P', 0x2029)]

/-- The escapes that are followed by digits, with how many. -/
def widths : List (Char × Nat) := [('x', 2), ('u', 4), ('U', 8)]

/-- Reads the escape behind a backslash: its character, and how many characters it takes. -/
def escape : List Char → Except ReadError (Char × Nat)
  | [] => .error .badEscape
  | c :: rest =>
    match letters.lookup c, widths.lookup c with
    | some n, _ => .ok (Char.ofNat n, 1)
    | _, some width =>
      match hexNumber? (rest.take width) with
      | some n =>
        if (rest.take width).length = width && n.isValidChar then .ok (Char.ofNat n, width + 1)
        else .error .badEscape
      | none => .error .badEscape
    | none, none => .error .badEscape

/-- Takes the characters between single quotes up to the next white space or quote. They are put
before `done`, last one first, and counted as they are written. -/
def singleWord (done : List Char) (count : Nat) : List Char → List Char × Nat
  | '\'' :: '\'' :: rest => singleWord ('\'' :: done) (count + 2) rest
  | '\'' :: _ => (done, count)
  | c :: rest => if isBlankOrBreak c then (done, count) else singleWord (c :: done) (count + 1) rest
  | [] => (done, count)

/-- Takes the characters between double quotes up to the next white space, quote or escaped line
break. `fuel` bounds their number. -/
def doubleWord :
    Nat → List Char → Nat → List Char → Except ReadError (List Char × Nat)
  | 0, done, count, _ => .ok (done, count)
  | _ + 1, done, count, [] => .ok (done, count)
  | fuel + 1, done, count, c :: rest =>
    if isBlankOrBreak c || c = '"' then .ok (done, count)
    else if c = '\\' then
      if rest.head?.any isBreak then .ok (done, count)
      else do
        let (char, width) ← escape rest
        doubleWord fuel (char :: done) (count + width + 1) (rest.drop width)
    else doubleWord fuel (c :: done) (count + 1) rest

/-- Takes words and the gaps between them up to the closing quote. `fuel` bounds the number of
characters. -/
def words (quote : Char) : Nat → Cursor → List Char → Except ReadError (List Char × Cursor)
  | 0, _, _ => .error .unclosedQuote
  | fuel + 1, c, done => do
    if c.isDocumentMarker || c.next.isNone then throw .unclosedQuote
    let (found, count) ←
      if quote = '"' then doubleWord (fuel + 1) [] 0 c.rest
      else pure (singleWord [] 0 c.rest)
    let done := found ++ done
    let c := c.advance count
    if c.next = some quote then return (done, c.advance 1)
    let (gap, c) :=
      if c.next = some '\\' then (Gap.lines none [], (c.advance 1).takeBreak.2) else (Gap.none, c)
    let (gap, c) ← Gap.take 0 (fuel + 1) c gap
    words quote fuel c (gap.fold.reverse ++ done)

/-- Takes a quoted scalar, at its opening quote. -/
def take (quote : Char) (c : Cursor) : Except ReadError (String × Cursor) := do
  let (done, c) ← words quote (c.rest.length + 1) (c.advance 1) []
  return (String.ofList done.reverse, c)

end OrderedEnv.Yaml.Quoted
