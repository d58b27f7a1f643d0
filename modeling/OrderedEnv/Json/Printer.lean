/-!
# Writing JSON

Objects are written over several lines, with one entry on each, indented by two spaces.
-/

namespace OrderedEnv.Json

/-- The digits of a byte in base 16. -/
def hexPair (n : Nat) : List Char := [Nat.digitChar (n / 16), Nat.digitChar (n % 16)]

/-- A character of a string. Quotes, backslashes and control characters are escaped. -/
def encodeChar (c : Char) : List Char :=
  if c = '"' then ['\\', '"']
  else if c = '\\' then ['\\', '\\']
  else if c = '\n' then ['\\', 'n']
  else if c = '\r' then ['\\', 'r']
  else if c = '\t' then ['\\', 't']
  else if c = '\x08' then ['\\', 'b']
  else if c = '\x0c' then ['\\', 'f']
  else if c.toNat < 0x20 then '\\' :: 'u' :: '0' :: '0' :: hexPair c.toNat
  else [c]

/-- A text as a string. -/
def encode (text : String) : List Char := '"' :: text.toList.flatMap encodeChar ++ ['"']

/-- One entry of an object, on a line of its own. -/
def entryLine (entry : String × List Char) : List Char :=
  '\n' :: ' ' :: ' ' :: encode entry.1 ++ [':', ' '] ++ entry.2

/-- An object from its keys and the texts of its values. -/
def objectText (entries : List (String × List Char)) : String :=
  match entries with
  | [] => "\x7b\x7d"
  | entry :: rest =>
    String.ofList
      ('\x7b' :: entryLine entry ++ (rest.flatMap fun entry => ',' :: entryLine entry) ++
        ['\n', '\x7d'])

end OrderedEnv.Json
