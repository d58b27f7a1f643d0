import OrderedEnv.Declaration.Basic
import OrderedEnv.Declaration.Error
import OrderedEnv.Text.Ascii

/-!
# The options of a declaration as they are written

A declaration is written with a mapping of options in which every option may be left out.
`OptionEntries.ofMapping` reads such a mapping, `OptionEntries.options` and
`OptionEntries.description` fill in what was left out, and `optionMapping` writes the options of a
declaration, leaving out every option that has its default or is blank.
-/

namespace OrderedEnv

open Yaml

/-- The options of a declaration, with `none` for those that are left out. -/
structure OptionEntries where
  title : Option String := none
  description : Option String := none
  summary : Option String := none
  category : Option String := none
  valueOptions : Option (List String) := none
  isRequired : Option Bool := none
  isExpand : Option Bool := none
  isDontChangeValue : Option Bool := none
  isTemplate : Option Bool := none
  isSensitive : Option Bool := none
  skipIfEmpty : Option Bool := none
  unset : Option Bool := none
  extra : Option Mapping := none
  deriving Repr

/-! ## Values of options -/

/-- The words for a flag, in lower case. -/
def flagOfWord? (word : String) : Option Bool :=
  if ["true", "yes", "y", "t", "1"].contains word then some true
  else if ["false", "no", "n", "f", "0"].contains word then some false
  else none

/-- A flag is a boolean, or one of ten words in letters of either case. -/
def readFlag (name : String) (value : Value) : Except DeclarationError Bool :=
  match value with
  | .bool flag => .ok flag
  | .string word =>
    match flagOfWord? (Text.asciiLower word) with
    | some flag => .ok flag
    | none => .error (.invalidOption name .flag value.describe)
  | _ => .error (.invalidOption name .flag value.describe)

/-- A text is any scalar. -/
def readText (name : String) (form : OptionForm) (value : Value) : Except DeclarationError String :=
  match value.scalarText? with
  | some text => .ok text
  | none => .error (.invalidOption name form value.describe)

/-- A list of texts is a list of scalars. -/
def readTextList (name : String) (value : Value) : Except DeclarationError (List String) :=
  match value with
  | .sequence items => items.mapM (readText name .textListItem)
  | _ => .error (.invalidOption name .textList value.describe)

/-- Free data is a mapping. -/
def readMapping (name : String) (value : Value) : Except DeclarationError Mapping :=
  match value with
  | .mapping entries => .ok entries
  | _ => .error (.invalidOption name .mapping value.describe)

/-! ## Reading -/

namespace OptionEntries

/-- Sets one option that has a value. -/
def set (o : OptionEntries) (name : String) (value : Value) :
    Except DeclarationError OptionEntries :=
  match name with
  | "title" => (readText name .text value).map fun v => { o with title := some v }
  | "description" => (readText name .text value).map fun v => { o with description := some v }
  | "summary" => (readText name .text value).map fun v => { o with summary := some v }
  | "category" => (readText name .text value).map fun v => { o with category := some v }
  | "value_options" => (readTextList name value).map fun v => { o with valueOptions := some v }
  | "is_required" => (readFlag name value).map fun v => { o with isRequired := some v }
  | "is_expand" => (readFlag name value).map fun v => { o with isExpand := some v }
  | "is_dont_change_value" =>
    (readFlag name value).map fun v => { o with isDontChangeValue := some v }
  | "is_template" => (readFlag name value).map fun v => { o with isTemplate := some v }
  | "is_sensitive" => (readFlag name value).map fun v => { o with isSensitive := some v }
  | "skip_if_empty" => (readFlag name value).map fun v => { o with skipIfEmpty := some v }
  | "unset" => (readFlag name value).map fun v => { o with unset := some v }
  | "meta" => (readMapping name value).map fun v => { o with extra := some v }
  | _ => .error (.unsupportedOption name)

/-- Reads one entry. A null value leaves the option out, whatever its name. -/
def add (o : OptionEntries) : Value × Value → Except DeclarationError OptionEntries
  | (.string name, value) => if value.isNull then .ok o else o.set name value
  | (key, _) => .error (.unsupportedOption key.describe)

/-- Reads a mapping of options. -/
def ofMapping (entries : Mapping) : Except DeclarationError OptionEntries :=
  entries.foldlM add {}

/-! ## Defaults -/

/-- The options, with the defaults for those left out. -/
def options (o : OptionEntries) : Options where
  expand := o.isExpand.getD ({} : Options).expand
  skipIfEmpty := o.skipIfEmpty.getD ({} : Options).skipIfEmpty
  unset := o.unset.getD ({} : Options).unset
  sensitive := o.isSensitive.getD ({} : Options).sensitive

/-- The description, with the defaults for what is left out. -/
def info (o : OptionEntries) : Description where
  title := o.title
  description := o.description
  summary := o.summary
  category := o.category
  valueOptions := o.valueOptions.getD []
  isRequired := o.isRequired.getD false
  isDontChangeValue := o.isDontChangeValue.getD false
  isTemplate := o.isTemplate.getD false
  extra := o.extra

end OptionEntries

/-! ## Writing -/

/-- The entry of a text, none if it is missing or empty. -/
def textEntry (name : String) (text : Option String) : Mapping :=
  match text with
  | some t => if t.isEmpty then [] else [(.string name, .string t)]
  | none => []

/-- The entry of a list of texts, none if the list is empty. -/
def textListEntry (name : String) (texts : List String) : Mapping :=
  if texts.isEmpty then [] else [(.string name, .sequence (texts.map .string))]

/-- The entry of a flag, none if it has its default. -/
def flagEntry (name : String) (flag default : Bool) : Mapping :=
  if flag = default then [] else [(.string name, .bool flag)]

/-- The entry of free data, none if it is missing or empty. -/
def mappingEntry (name : String) (entries : Option Mapping) : Mapping :=
  match entries with
  | some [] => []
  | some entries => [(.string name, .mapping entries)]
  | none => []

/-- The options of a declaration as they are written. -/
def optionMapping (options : Options) (info : Description) : Mapping :=
  textEntry "title" info.title ++
  textEntry "description" info.description ++
  textEntry "summary" info.summary ++
  textEntry "category" info.category ++
  textListEntry "value_options" info.valueOptions ++
  flagEntry "is_required" info.isRequired false ++
  flagEntry "is_expand" options.expand ({} : Options).expand ++
  flagEntry "is_dont_change_value" info.isDontChangeValue false ++
  flagEntry "is_template" info.isTemplate false ++
  flagEntry "is_sensitive" options.sensitive ({} : Options).sensitive ++
  flagEntry "skip_if_empty" options.skipIfEmpty ({} : Options).skipIfEmpty ++
  flagEntry "unset" options.unset ({} : Options).unset ++
  mappingEntry "meta" info.extra

end OrderedEnv
