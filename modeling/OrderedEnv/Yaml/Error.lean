/-!
# Why a text is not a document

The causes for which the reader gives up, and how they are put in words.
-/

namespace OrderedEnv.Yaml

/-- Why a text was refused. -/
inductive ReadError where
  /-- A control character. -/
  | forbiddenCharacter
  /-- A character that starts no token. -/
  | strayCharacter
  /-- A key without its `:`. -/
  | missingColon
  /-- A `-`, `?` or `:` in a place where no collection may start. -/
  | misplacedIndicator
  /-- A tab in the indentation. -/
  | tabInIndentation
  /-- A `%` line that is no directive, or one that is repeated. -/
  | badDirective
  /-- A version other than 1.1 and 1.2. -/
  | unsupportedVersion
  /-- An anchor or alias without a name, or with one that ends badly. -/
  | badAnchor
  /-- A tag that is malformed. -/
  | badTag
  /-- A tag handle that no directive declares. -/
  | undefinedHandle
  /-- The first line of a block scalar is malformed. -/
  | badBlockHeader
  /-- A quoted scalar without its end. -/
  | unclosedQuote
  /-- A backslash escape that is malformed. -/
  | badEscape
  /-- A `:` before the end of an item of a flow collection. -/
  | misplacedColon
  /-- A token other than the rules ask for. -/
  | unexpectedToken
  /-- A second document. -/
  | secondDocument
  /-- An alias for an anchor that was not set before. -/
  | undefinedAlias
  /-- Collections in collections, beyond the limit. -/
  | nestedTooDeep
  /-- Too many aliases to follow. -/
  | tooManyAliases
  /-- A key that its mapping holds already. -/
  | duplicateKey
  /-- An integer that does not fit into 64 bits. -/
  | integerTooLarge
  /-- A scalar that is not of the type that its tag claims. -/
  | tagMismatch
  /-- A value of another kind than the document wants here. -/
  | wrongKind
  deriving DecidableEq, Repr

/-- The message of an error. -/
def ReadError.message : ReadError → String
  | .forbiddenCharacter => "control characters are not allowed"
  | .strayCharacter => "found a character that cannot start a token"
  | .missingColon => "a key is not followed by ':'"
  | .misplacedIndicator => "a block collection cannot start here"
  | .tabInIndentation => "found a tab in the indentation"
  | .badDirective => "malformed or repeated directive"
  | .unsupportedVersion => "unsupported version"
  | .badAnchor => "malformed anchor or alias"
  | .badTag => "malformed tag"
  | .undefinedHandle => "undefined tag handle"
  | .badBlockHeader => "malformed start of a block scalar"
  | .unclosedQuote => "quoted text is not closed"
  | .badEscape => "malformed escape in quoted text"
  | .misplacedColon => "found an unexpected ':'"
  | .unexpectedToken => "did not find the expected token"
  | .secondDocument => "more than one document"
  | .undefinedAlias => "undefined alias"
  | .nestedTooDeep => "nested too deeply"
  | .tooManyAliases => "too many aliases"
  | .duplicateKey => "duplicate key"
  | .integerTooLarge => "integer out of range"
  | .tagMismatch => "value does not fit its tag"
  | .wrongKind => "unexpected kind of value"

end OrderedEnv.Yaml
