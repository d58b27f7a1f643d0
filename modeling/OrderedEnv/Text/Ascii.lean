/-!
# Words in text

Words that are compared without regard to case are compared in small letters of ASCII. No other
letter is changed, so a full-width or accented letter never equals a plain one.
-/

namespace OrderedEnv.Text

/-- The text with the capital letters of ASCII made small. -/
def asciiLower (text : String) : String := String.ofList (text.toList.map Char.toLower)

/-- The word stands somewhere in the text. -/
def occursIn (word : List Char) : List Char → Bool
  | [] => word.isEmpty
  | c :: cs => word.isPrefixOf (c :: cs) || occursIn word cs

end OrderedEnv.Text
