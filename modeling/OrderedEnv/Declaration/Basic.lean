import OrderedEnv.Yaml.Value

/-!
# Declarations

A declaration is one request in an ordered list: to set, to unset or to leave alone one environment
variable. Its options say how it is evaluated. Its description says what it is for, and never
changes what evaluation does.
-/

namespace OrderedEnv

/-- How a declaration is evaluated. -/
structure Options where
  /-- References to variables in the value are replaced. -/
  expand : Bool := true
  /-- The declaration does nothing if its value is empty. -/
  skipIfEmpty : Bool := false
  /-- The variable is removed. -/
  unset : Bool := false
  /-- The value must be kept secret. -/
  sensitive : Bool := false
  deriving DecidableEq, Repr

/-- What a declaration is for. -/
structure Description where
  title : Option String := none
  description : Option String := none
  summary : Option String := none
  category : Option String := none
  valueOptions : List String := []
  isRequired : Bool := false
  isDontChangeValue : Bool := false
  isTemplate : Bool := false
  /-- Free data. -/
  extra : Option Yaml.Mapping := none
  deriving Repr

/-- One request to set, unset or leave alone a variable. -/
structure Declaration where
  key : String
  value : String
  options : Options := {}
  info : Description := {}
  deriving Repr

namespace Declaration

/-- The declaration that removes a variable. -/
def remove (key : String) : Declaration := { key, value := "", options := { unset := true } }

/-- The declaration does nothing: it asks to be skipped when empty, and it is empty. -/
def isSkipped (d : Declaration) : Bool := d.options.skipIfEmpty && d.value.isEmpty

end Declaration

/-- Equality of descriptions, with equality of values for the free data. -/
def Description.same (a b : Description) : Bool :=
  a.title = b.title && a.description = b.description && a.summary = b.summary &&
    a.category = b.category && a.valueOptions = b.valueOptions && a.isRequired = b.isRequired &&
    a.isDontChangeValue = b.isDontChangeValue && a.isTemplate = b.isTemplate &&
    match a.extra, b.extra with
    | none, none => true
    | some x, some y => (Yaml.Value.mapping x).same (.mapping y)
    | _, _ => false

/-- Equality of declarations, with equality of values for the free data. -/
def Declaration.same (a b : Declaration) : Bool :=
  a.key = b.key && a.value = b.value && a.options = b.options && a.info.same b.info

end OrderedEnv
