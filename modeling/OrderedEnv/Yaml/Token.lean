/-!
# Tokens of YAML

What the text of a document is cut into. Indentation shows as tokens of its own: a block collection
has a token at its start and one at its end, and a key is announced before it stands, also where
only the `:` behind it tells that it is a key.
-/

namespace OrderedEnv.Yaml

/-- A token. The bytes of a tag are kept as they were written, with escapes undone. -/
inductive Token where
  | version (major minor : Nat)
  | tagDirective (handle : String) (expansion : List UInt8)
  | documentStart
  | documentEnd
  | blockSequenceStart
  | blockMappingStart
  | blockEnd
  | flowSequenceStart
  | flowSequenceEnd
  | flowMappingStart
  | flowMappingEnd
  | blockEntry
  | flowEntry
  | key
  | value
  | reference (name : String)
  | anchor (name : String)
  | tag (handle : String) (suffix : List UInt8)
  | scalar (text : String) (plain : Bool)
  deriving DecidableEq, Repr

end OrderedEnv.Yaml
