/-!
# Characters of YAML

The classes of characters that the rules of YAML speak of. A class that a rule tests on "the next
character or the end of the text" is a predicate on `Option Char`, with `none` for the end.
-/

namespace OrderedEnv.Yaml

/-- The characters a document may be made of. -/
def isAllowed (c : Char) : Bool :=
  let n := c.toNat
  n = 0x09 || n = 0x0A || n = 0x0D || (0x20 ≤ n && n ≤ 0x7E) || n = 0x85 ||
    (0xA0 ≤ n && n ≤ 0xD7FF) || (0xE000 ≤ n && n ≤ 0xFFFD) || 0x10000 ≤ n

/-- The mark that may stand at the start of a document. -/
def byteOrderMark : Char := Char.ofNat 0xFEFF

/-- The breaks between lines: carriage return, line feed, next line, line and paragraph separator. -/
def isBreak (c : Char) : Bool :=
  c = '\n' || c = '\r' || c = '\u0085' || c = '\u2028' || c = '\u2029'

/-- A space or a tab. -/
def isBlankChar (c : Char) : Bool := c = ' ' || c = '\t'

/-- A space, a tab or a line break. -/
def isBlankOrBreak (c : Char) : Bool := isBlankChar c || isBreak c

/-- A word ends here. -/
def endsWord (next : Option Char) : Bool := next.all isBlankOrBreak

/-- A line ends here. -/
def endsLine (next : Option Char) : Bool := next.all isBreak

/-- The characters of the names of anchors, directives and tag handles. -/
def isNameChar (c : Char) : Bool := c.isAlphanum || c = '-' || c = '_'

/-- The characters of a tag, apart from the escapes. Brackets and the comma count only where
`wide` is set. -/
def isTagChar (wide : Bool) (c : Char) : Bool :=
  isNameChar c || (";/?:@&=+$.!~*'()").contains c || (wide && (",[]").contains c)

/-- The characters that bound the items of a flow collection. -/
def isFlowIndicator (c : Char) : Bool := (",[]\x7b\x7d").contains c

/-- The characters with a meaning of their own at the start of a token. -/
def isIndicator (c : Char) : Bool := ("-?:,[]\x7b\x7d#&*!|>'\"%@`").contains c

end OrderedEnv.Yaml
