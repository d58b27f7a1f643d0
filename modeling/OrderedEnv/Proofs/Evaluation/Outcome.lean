import OrderedEnv.Proofs.History

/-!
# The outcome of an evaluation

Evaluation keeps a table and writes down a history while it goes. Here the table is removed: it is
the ambient environment with the history replayed into it (`run_fst`). What is left to say about an
outcome is then said by `History.last?`.

The lemmas about the fields of an outcome are what other modules use of `outcome`.
-/

namespace OrderedEnv

open Expansion (Binding)

/-! ## A run -/

/-- The table that a run leaves is the table it started with after the history of the run. -/
theorem run_fst (table : Table) (declarations : List Declaration) :
    (run table declarations).1 = table.replay (run table declarations).2 := by
  induction declarations generalizing table with
  | nil => rfl
  | cons d rest ih => exact ih _

@[simp] theorem Declaration.key_command (d : Declaration) (lookup : String → Option Binding) :
    (d.command lookup).key = d.key := by
  unfold command
  split
  · rfl
  · split <;> rfl

/-- There is one command for each declaration, and it is about the variable of the declaration. -/
theorem map_key_run (table : Table) (declarations : List Declaration) :
    (run table declarations).2.map Command.key = declarations.map Declaration.key := by
  induction declarations generalizing table with
  | nil => rfl
  | cons d rest ih =>
    show (d.command _).key :: (run _ rest).2.map Command.key = _
    rw [Declaration.key_command, ih, List.map_cons]

/-! ## The table at the start -/

@[simp] theorem Table.getElem?_ofEnvironment (e : Environment) (key : String) :
    (ofEnvironment e)[key]? = e[key]?.map fun value => ⟨value, false⟩ := by
  simp [ofEnvironment]

@[simp] theorem Table.getElem?_values (table : Table) (key : String) :
    table.values[key]? = table[key]?.map Binding.value := by
  simp [values]

theorem evaluate_eq_ok {source : Source} {ambient : Environment} (h : source.snapshot = .ok ambient)
    (declarations : List Declaration) :
    evaluate declarations source = .ok (outcome declarations ambient) := by
  rw [evaluate, h]

namespace Outcome

variable (declarations : List Declaration) (ambient : Environment)

/-- The table that an evaluation ends with. -/
def finalTable : Table := (run (.ofEnvironment ambient) declarations).1

theorem environment_outcome :
    (outcome declarations ambient).environment = (finalTable declarations ambient).values := rfl

/-- The table that an evaluation ends with, without the evaluation. -/
theorem finalTable_eq_replay :
    finalTable declarations ambient =
      (Table.ofEnvironment ambient).replay (outcome declarations ambient).history :=
  run_fst _ _

/-- A variable is declared if it is left after evaluation and some declaration is about it. -/
theorem getElem?_declared (key : String) :
    (outcome declarations ambient).declared[key]? =
      if key ∈ declarations.map Declaration.key then
        (outcome declarations ambient).environment[key]?
      else none := by
  show (Std.ExtTreeMap.filter _ (outcome declarations ambient).environment)[key]? = _
  rw [Std.ExtTreeMap.getElem?_filter']
  by_cases h : key ∈ declarations.map Declaration.key
  · rw [if_pos h]
    obtain ⟨d, hd, rfl⟩ := List.mem_map.mp h
    have hany : (declarations.any fun e => e.key = d.key) = true :=
      List.any_eq_true.mpr ⟨d, hd, decide_eq_true rfl⟩
    cases (outcome declarations ambient).environment[d.key]? with
    | none => rfl
    | some value => simp only [Option.filter_some, hany, if_true]
  · rw [if_neg h]
    refine Option.filter_eq_none_iff.mpr fun value _ hany => h ?_
    obtain ⟨d, hd, hkey⟩ := List.any_eq_true.mp hany
    exact List.mem_map.mpr ⟨d, hd, of_decide_eq_true hkey⟩

/-- A variable is secret if its entry in the table is. -/
theorem mem_sensitiveKeys (key : String) :
    key ∈ (outcome declarations ambient).sensitiveKeys ↔
      ∃ value, (finalTable declarations ambient)[key]? = some ⟨value, true⟩ := by
  show key ∈ Std.ExtTreeSet.ofList (List.map Prod.fst (List.filter _
    (finalTable declarations ambient).toList)) ↔ _
  rw [Std.ExtTreeSet.mem_ofList, List.contains_iff_mem, List.mem_map]
  constructor
  · rintro ⟨⟨name, ⟨value, sensitive⟩⟩, hmem, rfl⟩
    obtain ⟨hmem, hs⟩ := List.mem_filter.mp hmem
    obtain rfl : sensitive = true := hs
    exact ⟨value, Std.ExtTreeMap.mem_toList_iff_getElem?_eq_some.mp hmem⟩
  · rintro ⟨value, h⟩
    exact ⟨(key, ⟨value, true⟩),
      List.mem_filter.mpr ⟨Std.ExtTreeMap.mem_toList_iff_getElem?_eq_some.mpr h, rfl⟩, rfl⟩

end Outcome

end OrderedEnv
