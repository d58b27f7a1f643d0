import OrderedEnv.Proofs.Evaluation.Composition
import OrderedEnv.Proofs.Evaluation.Tainting
import OrderedEnv.Proofs.Expansion.FixedPoint

/-!
# The last declaration of a variable

A variable may be declared more than once. What is left of it after evaluation is what its last
declaration made of it, unless that one is skipped: the declarations behind it are about other
variables, and they leave the entry alone.

* `Outcome.getElem?_finalTable_of_unset` — the last declaration removes the variable
* `Outcome.exists_getElem?_finalTable_of_sets` — the last declaration sets it
-/

namespace OrderedEnv

open Expansion (Binding)

namespace Declaration

variable {d : Declaration} {ds : List Declaration} {key : String} {f : String → Option Binding}

/-! ## Finding it -/

/-- The last declaration of a variable in a list. -/
def lastIn? (ds : List Declaration) (key : String) : Option Declaration :=
  (ds.filter fun d => d.key = key).getLast?

theorem lastIn?_eq_none_iff : lastIn? ds key = none ↔ key ∉ ds.map Declaration.key := by
  rw [lastIn?, List.getLast?_eq_none_iff, List.filter_eq_nil_iff]
  simp

theorem mem_of_lastIn? (h : lastIn? ds key = some d) : d ∈ ds ∧ d.key = key := by
  have hmem := List.mem_of_getLast? h
  simpa using hmem

/-- All declarations of the variable but the last one stand in front of it. -/
theorem exists_append_of_lastIn? (h : lastIn? ds key = some d) :
    ∃ front back, ds = front ++ d :: back ∧ ∀ e ∈ back, e.key ≠ key := by
  obtain ⟨others, hothers⟩ := List.getLast?_eq_some_iff.mp h
  obtain ⟨first, rest, rfl, -, hrest⟩ := List.filter_eq_append_iff.mp hothers
  obtain ⟨middle, back, rfl, -, -, hback⟩ := List.filter_eq_cons_iff.mp hrest
  refine ⟨first ++ middle, back, (List.append_assoc _ _ _).symm, fun e he => ?_⟩
  simpa using List.filter_eq_nil_iff.mp hback e he

theorem lastIn?_append_singleton (ds : List Declaration) (d : Declaration) :
    lastIn? (ds ++ [d]) d.key = some d := by
  simp [lastIn?]

/-! ## What it does -/

/-- A declaration changes no variable but its own. -/
theorem key_of_target? (h : d.target? = some key) : d.key = key := by
  unfold target? at h
  split at h
  · exact Option.some.inj h
  · split at h
    · cases h
    · exact Option.some.inj h

theorem target?_of_unset (h : d.options.unset = true) : d.target? = some d.key := by
  rw [target?, if_pos h]

theorem command_of_unset (h : d.options.unset = true) : d.command f = .unset d.key := by
  rw [command, if_pos h]

theorem binding?_command_of_sets (h : d.Sets) : (d.command f).binding? = some (d.resolve f) := by
  rw [command_of_sets h]
  rfl

/-- A value that is not expanded, or has nothing to expand, is set as it is written. -/
theorem resolve_of_plain (h : d.options.expand = false ∨ '$' ∉ d.value.toList)
    (f : String → Option Binding) : d.resolve f = ⟨d.value, d.options.sensitive⟩ := by
  unfold resolve
  cases he : d.options.expand with
  | false => simp
  | true =>
    have hvalue := h.resolve_left (by simp [he])
    simp [Expansion.expand_of_not_mem hvalue]

end Declaration

/-! ## What it leaves -/

/-- A variable that no declaration changes keeps its entry. -/
theorem getElem?_run_of_untouched {ds : List Declaration} {key : String}
    (h : ∀ d ∈ ds, d.target? ≠ some key) (table : Table) :
    (run table ds).1[key]? = table[key]? := by
  induction ds generalizing table with
  | nil => rfl
  | cons d rest ih =>
    show (run (table.apply (d.command _)) rest).1[key]? = _
    rw [ih fun e he => h e (List.mem_cons_of_mem d he), Table.getElem?_apply,
      Declaration.target?_command, if_neg (h d List.mem_cons_self)]

namespace Outcome

open Declaration

variable {d : Declaration} {ds : List Declaration} {key : String}

/-- **The last declaration of a variable decides what is left of it**, unless it is skipped. -/
theorem exists_getElem?_finalTable (h : lastIn? ds key = some d) (ht : d.target? = some key)
    (ambient : Environment) :
    ∃ f, (finalTable ds ambient)[key]? = (d.command f).binding? := by
  obtain ⟨front, back, rfl, hback⟩ := exists_append_of_lastIn? h
  refine ⟨fun name => (finalTable front ambient)[name]?, ?_⟩
  rw [finalTable_append]
  show (run ((finalTable front ambient).apply (d.command _)) back).1[key]? = _
  rw [getElem?_run_of_untouched fun e he hkey => hback e he (key_of_target? hkey),
    Table.getElem?_apply, target?_command, if_pos ht]

theorem getElem?_finalTable_of_unset (h : lastIn? ds key = some d) (hu : d.options.unset = true)
    (ambient : Environment) : (finalTable ds ambient)[key]? = none := by
  obtain ⟨-, rfl⟩ := mem_of_lastIn? h
  obtain ⟨f, hf⟩ := exists_getElem?_finalTable h (target?_of_unset hu) ambient
  rw [hf, command_of_unset hu]
  rfl

theorem exists_getElem?_finalTable_of_sets (h : lastIn? ds key = some d) (hd : d.Sets)
    (ambient : Environment) : ∃ f, (finalTable ds ambient)[key]? = some (d.resolve f) := by
  obtain ⟨-, rfl⟩ := mem_of_lastIn? h
  obtain ⟨f, hf⟩ := exists_getElem?_finalTable h (target?_of_sets hd) ambient
  exact ⟨f, hf.trans (binding?_command_of_sets hd)⟩

end Outcome

end OrderedEnv
