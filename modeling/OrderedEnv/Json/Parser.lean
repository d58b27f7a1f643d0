import OrderedEnv.Json

/-!
# Reading JSON

The grammar is strict: no comments, no commas at the end of a collection, no zeros in front of a
number, no control characters in a string.

Each function reads something from the front of a text and yields it with the rest. Every two calls
take at least one character, which bounds their number.
-/

namespace OrderedEnv.Json

/-- The white space between tokens. -/
def isSpace (c : Char) : Bool := c = ' ' || c = '\n' || c = '\t' || c = '\r'

/-- The text without white space in front. -/
def skipSpace (cs : List Char) : List Char := cs.dropWhile isSpace

/-- The digits in front, of which there must be at least one. -/
def digits? (cs : List Char) : Option (List Char × List Char) :=
  let digits := cs.takeWhile Char.isDigit
  if digits.isEmpty then none else some (digits, cs.dropWhile Char.isDigit)

/-- The whole part of a number: digits that do not start with a useless zero. -/
def whole? : List Char → Option (List Char × List Char)
  | '0' :: rest => if rest.head?.any Char.isDigit then none else some (['0'], rest)
  | cs => digits? cs

/-- The fraction of a number, empty if there is none. -/
def fraction? : List Char → Option (List Char × List Char)
  | '.' :: rest => (digits? rest).map fun (digits, rest) => ('.' :: digits, rest)
  | cs => some ([], cs)

/-- The exponent of a number, empty if there is none. -/
def exponent? : List Char → Option (List Char × List Char)
  | e :: rest =>
    if e = 'e' || e = 'E' then
      match rest with
      | sign :: tail =>
        if sign = '+' || sign = '-' then
          (digits? tail).map fun (digits, rest) => (e :: sign :: digits, rest)
        else (digits? rest).map fun (digits, rest) => (e :: digits, rest)
      | [] => none
    else some ([], e :: rest)
  | [] => some ([], [])

/-- A number without its sign. -/
def unsigned? (cs : List Char) : Option (List Char × List Char) := do
  let (whole, cs) ← whole? cs
  let (fraction, cs) ← fraction? cs
  let (exponent, cs) ← exponent? cs
  return (whole ++ fraction ++ exponent, cs)

/-- A number. -/
def number? : List Char → Option (List Char × List Char)
  | '-' :: cs => (unsigned? cs).map fun (written, rest) => ('-' :: written, rest)
  | cs => unsigned? cs

/-- The rest of a string, behind its opening quote, put before `done`, last character first. -/
def string? (done : List Char) : List Char → Option (List Char × List Char)
  | '"' :: rest => some (done.reverse, rest)
  | '\\' :: 'u' :: a :: b :: c :: d :: rest =>
    if (hex4? a b c d).isSome then string? (d :: c :: b :: a :: 'u' :: '\\' :: done) rest else none
  | '\\' :: c :: rest =>
    if (escapes.lookup c).isSome then string? (c :: '\\' :: done) rest else none
  | c :: rest => if c.toNat < 0x20 || c = '\\' then none else string? (c :: done) rest
  | [] => none

mutual

/-- A value, with the white space in front of it. -/
def value? : Nat → List Char → Option (Json × List Char)
  | 0, _ => none
  | fuel + 1, cs =>
    match skipSpace cs with
    | 'n' :: 'u' :: 'l' :: 'l' :: rest => some (.null, rest)
    | 't' :: 'r' :: 'u' :: 'e' :: rest => some (.bool true, rest)
    | 'f' :: 'a' :: 'l' :: 's' :: 'e' :: rest => some (.bool false, rest)
    | '"' :: rest => (string? [] rest).map fun (written, rest) => (.string written, rest)
    | '[' :: rest =>
      match skipSpace rest with
      | ']' :: rest => some (.array [], rest)
      | rest => (items? fuel [] rest).map fun (items, rest) => (.array items, rest)
    | '\x7b' :: rest =>
      match skipSpace rest with
      | '\x7d' :: rest => some (.object [], rest)
      | rest => (entries? fuel [] rest).map fun (entries, rest) => (.object entries, rest)
    | cs => (number? cs).map fun (written, rest) => (.number written, rest)

/-- The items of an array up to its end, put before `done`, last one first. -/
def items? : Nat → List Json → List Char → Option (List Json × List Char)
  | 0, _, _ => none
  | fuel + 1, done, cs =>
    match value? fuel cs with
    | none => none
    | some (item, rest) =>
      match skipSpace rest with
      | ']' :: rest => some ((item :: done).reverse, rest)
      | ',' :: rest => items? fuel (item :: done) rest
      | _ => none

/-- The entries of an object up to its end, put before `done`, last one first. -/
def entries? : Nat → List (List Char × Json) → List Char →
    Option (List (List Char × Json) × List Char)
  | 0, _, _ => none
  | fuel + 1, done, cs =>
    match skipSpace cs with
    | '"' :: rest =>
      match string? [] rest with
      | none => none
      | some (key, rest) =>
        match skipSpace rest with
        | ':' :: rest =>
          match value? fuel rest with
          | none => none
          | some (value, rest) =>
            match skipSpace rest with
            | '\x7d' :: rest => some (((key, value) :: done).reverse, rest)
            | ',' :: rest => entries? fuel ((key, value) :: done) rest
            | _ => none
        | _ => none
    | _ => none

end

/-- The value that a text holds, with nothing but white space around it. -/
def ofText? (text : String) : Option Json :=
  match value? (2 * text.length + 2) text.toList with
  | some (value, rest) => if (skipSpace rest).isEmpty then some value else none
  | none => none

end OrderedEnv.Json
