import OrderedEnv.Declaration.OptionEntries

/-!
# Declarations as they are written

On paper a declaration is a mapping with one entry for its variable, and at most one entry `opts`
for its options:

```yaml
API_URL: https://$HOST/api
opts:
  is_sensitive: true
```

`Declaration.ofRaw` reads such a mapping and `Declaration.toRaw` writes it. An entry whose key is
the empty text names no variable and is passed over.
-/

namespace OrderedEnv

open Yaml

/-- A declaration as it is written. -/
abbrev RawDeclaration := Mapping

/-- The key of the options. -/
def optionsKey : String := "opts"

namespace Declaration

/-- The entries of a mapping whose keys are all text. -/
def textEntries : RawDeclaration → Except DeclarationError (List (String × Value))
  | [] => .ok []
  | (.string key, value) :: rest => (textEntries rest).map ((key, value) :: ·)
  | (key, _) :: _ => .error (.nonStringKey key.describe)

/-- The key names a variable. -/
def isVariableKey (key : String) : Bool := key ≠ optionsKey && !key.isEmpty

/-- The one entry that names a variable. -/
def variableEntry (entries : List (String × Value)) :
    Except DeclarationError (String × Value) :=
  match entries.filter fun entry => isVariableKey entry.1 with
  | [] => .error (.missingKey (entries.map Prod.fst))
  | [entry] => .ok entry
  | many => .error (.multipleKeys (many.map Prod.fst))

/-- The options among the entries. Null counts as no options. -/
def optionEntries (entries : List (String × Value)) : Except DeclarationError OptionEntries :=
  match entries.lookup optionsKey with
  | none => .ok {}
  | some .null => .ok {}
  | some (.mapping options) => OptionEntries.ofMapping options
  | some other => .error (.optionsNotMap other.describe)

/-- Reads a declaration. The key is settled before the value, and the value before the options. -/
def ofRaw (raw : RawDeclaration) : Except DeclarationError Declaration := do
  let entries ← textEntries raw
  let (key, found) ← variableEntry entries
  let value ←
    match found.scalarText? with
    | some text => pure text
    | none => throw (.nonScalarValue key found.describe)
  let written ← optionEntries entries
  return { key, value, options := written.options, info := written.info }

/-- Writes a declaration. Options come behind the variable, and not at all if none is worth
writing. -/
def toRaw (d : Declaration) : RawDeclaration :=
  let entries : Mapping := [(.string d.key, .string d.value)]
  match optionMapping d.options d.info with
  | [] => entries
  | options => Mapping.insert entries (.string optionsKey) (.mapping options)

end Declaration

end OrderedEnv
