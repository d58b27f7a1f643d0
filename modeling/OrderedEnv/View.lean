import OrderedEnv.Evaluation

/-!
# Views

What is shown of a list of declarations: a value for each variable, as it was written or as
evaluation leaves it, with secret values hidden if that is wished.
-/

namespace OrderedEnv

/-- What a view holds. -/
structure ViewOptions where
  /-- Evaluated values in place of those that were written. -/
  expand : Bool := false
  /-- Only what is secret. -/
  sensitiveOnly : Bool := false
  /-- Secret values are hidden. -/
  redact : Bool := false
  deriving DecidableEq, Repr

/-- What is shown in place of a secret value. -/
def redacted : String := "[REDACTED]"

namespace View

open Expansion (Binding)

/-- The last written value of each variable. A variable that was unset last has none. -/
def written (declarations : List Declaration) : Table :=
  declarations.foldl
    (fun table d =>
      if d.options.unset then table.erase d.key
      else table.insert d.key ⟨d.value, d.options.sensitive⟩)
    ∅

/-- The evaluated value of each declared variable that is left after evaluation. -/
def evaluated (o : Outcome) : Table :=
  o.declared.map fun key value => ⟨value, o.sensitiveKeys.contains key⟩

/-- What is shown of one value. -/
def shownValue (options : ViewOptions) (binding : Binding) : String :=
  if options.redact && binding.sensitive then redacted else binding.value

/-- The part of a table that is asked for, as it is shown. -/
def shown (options : ViewOptions) (table : Table) : Environment :=
  (table.filter fun _ binding => !options.sensitiveOnly || binding.sensitive).map
    fun _ binding => shownValue options binding

/-- The view of declarations. The source is read only for evaluated values. -/
def render (declarations : List Declaration) (options : ViewOptions) (source : Source) :
    Except EvaluationError Environment :=
  if options.expand then
    (evaluate declarations source).map fun o => shown options (evaluated o)
  else .ok (shown options (written declarations))

/-- One line for each variable. -/
def plain (view : Environment) : String :=
  String.join (view.toList.map fun (key, value) => key ++ "=" ++ value ++ "\n")

end View

end OrderedEnv
