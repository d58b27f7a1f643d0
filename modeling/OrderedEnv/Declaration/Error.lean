/-!
# Malformed declarations

The reasons for which a mapping is no declaration, and the messages that name them.
-/

namespace OrderedEnv

/-- The form of value that an option takes. -/
inductive OptionForm where
  | text
  | textList
  | textListItem
  | flag
  | mapping
  deriving DecidableEq, Repr

/-- What a message calls a form. -/
def OptionForm.phrase : OptionForm → String
  | .text => "a string"
  | .textList => "a list"
  | .textListItem => "a list of strings"
  | .flag => "a boolean"
  | .mapping => "a map"

/-- Why a mapping is no declaration. Values are given by their description. -/
inductive DeclarationError where
  /-- No entry names a variable. -/
  | missingKey (keys : List String)
  /-- More than one entry names a variable. -/
  | multipleKeys (keys : List String)
  /-- A key is not text. -/
  | nonStringKey (found : String)
  /-- The value of the variable is a list or a mapping. -/
  | nonScalarValue (key found : String)
  /-- The options are no mapping. -/
  | optionsNotMap (found : String)
  /-- There is no option of that name. -/
  | unsupportedOption (name : String)
  /-- An option has a value of another form. -/
  | invalidOption (name : String) (expected : OptionForm) (found : String)
  deriving DecidableEq, Repr

/-- The message of an error. -/
def DeclarationError.message : DeclarationError → String
  | .missingKey keys => "no environment key found, keys: [" ++ " ".intercalate keys ++ "]"
  | .multipleKeys keys => "more than 1 environment key specified: [" ++ " ".intercalate keys ++ "]"
  | .nonStringKey found => "environment key must be a string, found " ++ found
  | .nonScalarValue key found => "value of '" ++ key ++ "' must be a scalar, found " ++ found
  | .optionsNotMap found => "options must be a map, found " ++ found
  | .unsupportedOption name => "not supported key found in options: " ++ name
  | .invalidOption name expected found =>
    "option '" ++ name ++ "' expects " ++ expected.phrase ++ ", found " ++ found

end OrderedEnv
