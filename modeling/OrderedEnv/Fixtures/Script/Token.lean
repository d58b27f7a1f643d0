import OrderedEnv.Fixtures.Utility

/-!
# The tokens of shell scripts

A fixture for tests: the tool does not need it, and no theorem is about it.

A small part of the language of the POSIX shell: commands made of words with quotes and parameters in
them, one after another, under the condition that the one before succeeded or failed, or with its
output as their input. What a command writes can be sent elsewhere.
-/

namespace OrderedEnv.Script

/-! ## Words -/

/-- A text that stands for a parameter in some cases. -/
structure Alternative where
  /-- It stands for a parameter that has a value, and not for one that has none. -/
  whenSet : Bool
  /-- A parameter whose value is empty counts as one that has none. -/
  emptyIsUnset : Bool
  text : List Char

/-- A part of a word. -/
inductive Part where
  | literal (text : List Char)
  | parameter (name : String) (quoted : Bool) (alternative : Option Alternative)
  /-- The number of characters in the value of a parameter. -/
  | length (name : String)

/-- How a command follows the one before. -/
inductive Link where
  | always
  | afterSuccess
  | afterFailure
  /-- It reads what the one before writes. -/
  | pipe
  deriving DecidableEq

/-- One of the two outputs of a command. -/
inductive Stream where
  | output
  | errors
  deriving DecidableEq

/-- The smallest units of a script. -/
inductive Token where
  | word (parts : List Part)
  | next (link : Link)
  /-- The word behind it says where the output goes: to the end of a file, or in place of its
  content. -/
  | redirect (source : Stream) (append : Bool)

/-- The characters that are the whole name of a parameter. -/
def isSpecial (c : Char) : Bool := ['@', '*', '#', '?', '$', '!', '-'].contains c || c.isDigit

/-- The characters of any other name. -/
def isNameChar (c : Char) : Bool := c.isAlphanum || c = '_'

/-- Takes the name of a parameter. -/
def takeName : List Char → Option (String × List Char)
  | [] => none
  | c :: cs =>
    if isSpecial c then some (String.ofList [c], cs)
    else if isNameChar c then
      some (String.ofList (c :: cs.takeWhile isNameChar), cs.dropWhile isNameChar)
    else none

/-- What stands behind the name of a parameter in braces. -/
def alternative? : List Char → Option Alternative
  | ':' :: '-' :: text => some ⟨false, true, text⟩
  | '-' :: text => some ⟨false, false, text⟩
  | ':' :: '+' :: text => some ⟨true, true, text⟩
  | '+' :: text => some ⟨true, false, text⟩
  | _ => none

/-- What stands for a parameter between braces. -/
def inBraces (quoted : Bool) : List Char → Option Part
  | '#' :: c :: cs => (takeName (c :: cs)).map fun (name, _) => .length name
  | cs => (takeName cs).map fun (name, behind) => .parameter name quoted (alternative? behind)

/-- Takes what stands behind a `$`. -/
def takeParameter (quoted : Bool) : List Char → Option (Part × List Char)
  | '\x7b' :: cs => do
    let part ← inBraces quoted (cs.takeWhile (· ≠ '\x7d'))
    return (part, (cs.dropWhile (· ≠ '\x7d')).drop 1)
  | cs => (takeName cs).map fun (name, rest) => (.parameter name quoted none, rest)

/-- A word that is being read, the last part first, if there is one. -/
abbrev Open := Option (List Part)

/-- The word with one more part. -/
def Open.push (word : Open) (part : Part) : Open := some (part :: word.getD [])

/-- The tokens with the word that ends in front of them. -/
def Open.close (word : Open) (tokens : List Token) : List Token :=
  match word with
  | none => tokens
  | some parts => .word parts.reverse :: tokens

/-- The tokens of a `>`. The number of an output in front of it belongs to it. -/
def Open.redirect (word : Open) (append : Bool) (tokens : List Token) : List Token :=
  match word with
  | some [.literal ['1']] => .redirect .output append :: tokens
  | some [.literal ['2']] => .redirect .errors append :: tokens
  | _ => word.close (.redirect .output append :: tokens)

/-- Reads the tokens of a script. Each step takes at least one character, so as many steps as there
are characters are enough. -/
def tokensFrom : Nat → Open → Bool → List Char → List Token
  | 0, word, _, _ => word.close []
  | _, word, _, [] => word.close []
  | n + 1, word, true, c :: cs =>
    match c, cs with
    | '"', _ => tokensFrom n word false cs
    | '\\', d :: ds =>
      if ['$', '"', '\\'].contains d then tokensFrom n (word.push (.literal [d])) true ds
      else tokensFrom n (word.push (.literal ['\\'])) true cs
    | '$', _ =>
      match takeParameter true cs with
      | some (part, rest) => tokensFrom n (word.push part) true rest
      | none => tokensFrom n (word.push (.literal ['$'])) true cs
    | _, _ => tokensFrom n (word.push (.literal [c])) true cs
  | n + 1, word, false, c :: cs =>
    match c, cs with
    | ' ', _ => word.close (tokensFrom n none false cs)
    | '\t', _ => word.close (tokensFrom n none false cs)
    | '\n', _ => word.close (.next .always :: tokensFrom n none false cs)
    | ';', _ => word.close (.next .always :: tokensFrom n none false cs)
    | '&', '&' :: ds => word.close (.next .afterSuccess :: tokensFrom n none false ds)
    | '|', '|' :: ds => word.close (.next .afterFailure :: tokensFrom n none false ds)
    | '|', _ => word.close (.next .pipe :: tokensFrom n none false cs)
    | '>', '>' :: ds => word.redirect true (tokensFrom n none false ds)
    | '>', '&' :: ds => word.redirect false (tokensFrom n (some [.literal ['&']]) false ds)
    | '>', _ => word.redirect false (tokensFrom n none false cs)
    | '"', _ => tokensFrom n (word.push (.literal [])) true cs
    | '\'', _ =>
      tokensFrom n (word.push (.literal (cs.takeWhile (· ≠ '\''))))
        false ((cs.dropWhile (· ≠ '\'')).drop 1)
    | '\\', d :: ds => tokensFrom n (word.push (.literal [d])) false ds
    | '$', _ =>
      match takeParameter false cs with
      | some (part, rest) => tokensFrom n (word.push part) false rest
      | none => tokensFrom n (word.push (.literal ['$'])) false cs
    | _, _ =>
      if c = '#' && word.isNone then tokensFrom n none false (cs.dropWhile (· ≠ '\n'))
      else tokensFrom n (word.push (.literal [c])) false cs

/-- The tokens of a script. -/
def tokens (script : String) : List Token :=
  tokensFrom script.toList.length none false script.toList

end OrderedEnv.Script
