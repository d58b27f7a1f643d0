import OrderedEnv.Proofs.Evaluation.LastDeclaration
import OrderedEnv.Proofs.Request.Editing

/-!
# Evaluating what was added

A declaration that is added to a list is the last one of its variable from then on, be it behind
the list or in place of all others (`Store.Adds.lastIn?_eq`). So it decides what evaluation leaves
of the variable, whatever else is in the list.

One that removes its variable and comes behind the list does nothing more than that: the outcome is
the one before without the variable (`Outcome.isWithout_append`).
-/

namespace OrderedEnv

/-! ## The place of a new declaration -/

namespace Store

variable {d : Declaration} {ds ds' : List Declaration} {policy : Policy} {done : Added}

/-- What stands for a variable that was replaced is the new declaration. -/
theorem lastIn?_replaceAll (h : 0 < countIn ds d.key) :
    Declaration.lastIn? (replaceAll d ds) d.key = some d := by
  cases hlast : Declaration.lastIn? (replaceAll d ds) d.key with
  | none =>
    rw [Declaration.lastIn?_eq_none_iff, map_key_replaceAll, ← List.count_pos_iff,
      ← countIn_eq_count] at hlast
    exact absurd h hlast
  | some e =>
    obtain ⟨hmem, hkey⟩ := Declaration.mem_of_lastIn? hlast
    obtain ⟨old, -, rfl⟩ := List.mem_map.mp hmem
    split at hkey
    · next hold => rw [if_pos hold]
    · next hold => exact absurd hkey hold

/-- **A declaration that was added is the last one of its variable.** -/
theorem Adds.lastIn?_eq (h : Adds ds d policy done ds') :
    Declaration.lastIn? ds' d.key = some d := by
  cases h with
  | added _ _ | appended _ => exact Declaration.lastIn?_append_singleton ds d
  | replaced hcount => exact lastIn?_replaceAll hcount

/-- To append is to put behind the list, also if there is nothing to append to. -/
theorem Adds.eq_append (h : Adds ds d .append done ds') : ds' = ds ++ [d] := by
  cases h <;> rfl

end Store

/-! ## Outcomes -/

namespace Outcome

open Declaration

/-- What an outcome owes to the last declaration of a variable. -/
structure DecidedBy (o : Outcome) (d : Declaration) : Prop where
  /-- The variable is removed. -/
  unset : d.options.unset = true → d.key ∉ o.environment
  /-- A value that is not expanded is there as it was written. -/
  value : d.Sets → d.options.expand = false → o.environment[d.key]? = some d.value
  /-- It is secret just if it was declared so. -/
  sensitive : d.Sets → d.options.expand = false →
    (d.key ∈ o.sensitiveKeys ↔ d.options.sensitive = true)

/-- An outcome is another one without a variable, which was removed by the last command. -/
structure IsWithout (o : Outcome) (key : String) (before : Outcome) : Prop where
  environment : o.environment = before.environment.erase key
  declared : o.declared = before.declared.erase key
  sensitiveKeys : o.sensitiveKeys = before.sensitiveKeys.erase key
  history : o.history = before.history ++ [.unset key]

variable {d : Declaration} {ds : List Declaration}

theorem decidedBy_of_lastIn? (h : lastIn? ds d.key = some d) (ambient : Environment) :
    (outcome ds ambient).DecidedBy d where
  unset hu := by
    rw [Std.ExtTreeMap.mem_iff_isSome_getElem?, environment_outcome, Table.getElem?_values,
      getElem?_finalTable_of_unset h hu]
    simp
  value hd hx := by
    obtain ⟨f, hf⟩ := exists_getElem?_finalTable_of_sets h hd ambient
    rw [environment_outcome, Table.getElem?_values, hf, resolve_of_plain (.inl hx)]
    rfl
  sensitive hd hx := by
    obtain ⟨f, hf⟩ := exists_getElem?_finalTable_of_sets h hd ambient
    rw [mem_sensitiveKeys, hf, resolve_of_plain (.inl hx)]
    simp

/-- **A declaration behind the list that removes its variable does nothing else.** -/
theorem isWithout_append (hu : d.options.unset = true) (ds : List Declaration)
    (ambient : Environment) :
    (outcome (ds ++ [d]) ambient).IsWithout d.key (outcome ds ambient) := by
  have hrun : run (finalTable ds ambient) [d] =
      ((finalTable ds ambient).erase d.key, [.unset d.key]) := by
    simp only [run, command_of_unset hu]
    rfl
  have htable : finalTable (ds ++ [d]) ambient = (finalTable ds ambient).erase d.key := by
    rw [finalTable_append, hrun]
  have henvironment : (outcome (ds ++ [d]) ambient).environment =
      (outcome ds ambient).environment.erase d.key := by
    ext key : 1
    rw [environment_outcome, environment_outcome, Table.getElem?_values, htable,
      Std.ExtTreeMap.getElem?_erase, Std.ExtTreeMap.getElem?_erase, Table.getElem?_values]
    split <;> rfl
  exact
    { environment := henvironment
      declared := by
        ext key : 1
        rw [getElem?_declared, henvironment, Std.ExtTreeMap.getElem?_erase,
          Std.ExtTreeMap.getElem?_erase, getElem?_declared]
        by_cases hkey : d.key = key
        · simp [hkey]
        · have hmem : key ∈ (ds ++ [d]).map Declaration.key ↔ key ∈ ds.map Declaration.key := by
            simp [show key ≠ d.key from Ne.symm hkey]
          simp only [hmem, Std.compare_eq_iff_eq, hkey, if_false]
      sensitiveKeys := by
        ext key
        rw [mem_sensitiveKeys, htable, Std.ExtTreeMap.getElem?_erase, Std.ExtTreeSet.mem_erase,
          mem_sensitiveKeys]
        by_cases hkey : d.key = key
        · simp [hkey]
        · simp [hkey]
      history := by rw [history_append, hrun] }

end Outcome

/--
**The declaration that was added last decides its variable.**

Over a source that can be read, a list is evaluated before and after a declaration was added to it.
If the declaration removes its variable, it is not there. If it sets the variable to a value that
is not expanded, then the value is there as it was written, and secret just if it was declared so.
If the declaration removes its variable and was to be appended, nothing else changes.

The latter is what the request `unset` does with the store that it finds.
-/
theorem evaluate_added {source : Source} {ambient : Environment}
    (h : source.snapshot = .ok ambient) :
    (∀ (store store' : Store) (d : Declaration) (policy : Store.Policy) (done : Store.Added),
      store.add d policy = .ok (done, store') →
        ∃ o o', evaluate store.declarations source = .ok o ∧
          evaluate store'.declarations source = .ok o' ∧ o'.DecidedBy d ∧
          (d.options.unset = true → policy = .append → o'.IsWithout d.key o)) ∧
    ∀ (format : StoreFormat) (path : Path) (key : String) (machine machine' : Machine),
      Yields (Request.performUnset format path key) machine () machine' →
        ∃ store done store', Store.Opened format path machine.files store ∧
          store.add (.remove key) .append = .ok (done, store') ∧
          Store.Holds format path machine'.files store'.declarations := by
  refine ⟨fun store store' d policy done hadd => ?_,
    fun format path key machine machine' hunset => ?_⟩
  · obtain ⟨-, hadds⟩ := Store.add_eq_ok_iff.mp hadd
    refine ⟨_, _, evaluate_eq_ok h _, evaluate_eq_ok h _,
      Outcome.decidedBy_of_lastIn? hadds.lastIn?_eq ambient, ?_⟩
    rintro hu rfl
    rw [hadds.eq_append]
    exact Outcome.isWithout_append hu _ ambient
  · exact (of_yields_performUnset hunset).2

/-- A token takes the place of two values and is not expanded. In the same list an ambient variable
is removed, and the request `unset` removes one on a machine. -/
theorem evaluate_added_token :
    let ambient : Environment := .ofPairs [("A", "0"), ("K", "v")]
    let store : Store := ⟨.ofText "store.yml",
      [{ key := "A", value := "1" }, { key := "B", value := "$A$K" }, { key := "A", value := "2" }]⟩
    let token : Declaration :=
      { key := "A", value := "$B", options := { expand := false, sensitive := true } }
    let removed : Store := ⟨store.path, store.declarations ++ [.remove "K"]⟩
    let set : Edit := .add ⟨"HOST", .given "example.com", {}, false⟩ false
    let unset : MachineStep RequestError Unit :=
      Request.performUnset Edit.sampleFormat store.path "HOST"
    let machine := ((set.perform Edit.sampleFormat store.path).outcome Edit.bareMachine).2
    (Source.table ambient).snapshot = .ok ambient ∧
      (∃ store' o, store.add token .replace = .ok (.replaced 2, store') ∧
        evaluate store'.declarations (.table ambient) = .ok o ∧
        o.environment["A"]? = some "$B" ∧ "A" ∈ o.sensitiveKeys) ∧
      (∃ o o', store.add (.remove "K") .append = .ok (.added, removed) ∧
        evaluate store.declarations (.table ambient) = .ok o ∧
        evaluate removed.declarations (.table ambient) = .ok o' ∧ o'.IsWithout "K" o) ∧
      ∃ machine' found done store', Yields unset machine () machine' ∧
        Store.Opened Edit.sampleFormat store.path machine.files found ∧
        found.add (.remove "HOST") .append = .ok (done, store') ∧
        Store.Holds Edit.sampleFormat store.path machine'.files store'.declarations := by
  intro ambient store token removed set unset machine
  have hsource : (Source.table ambient).snapshot = .ok ambient := rfl
  obtain ⟨hadded, hunset⟩ := evaluate_added hsource
  refine ⟨hsource, ?_, ?_, ?_⟩
  · have hadd : store.add token .replace =
        .ok (.replaced 2, ⟨store.path, Store.replaceAll token store.declarations⟩) := rfl
    obtain ⟨_, o, -, ho, hdecided, -⟩ := hadded _ _ _ _ _ hadd
    have hsets : token.Sets := ⟨rfl, rfl⟩
    exact ⟨_, o, hadd, ho, hdecided.value hsets rfl, (hdecided.sensitive hsets rfl).mpr rfl⟩
  · have hadd : store.add (.remove "K") .append = .ok (.added, removed) := rfl
    obtain ⟨o, o', ho, ho', -, hwithout⟩ := hadded _ _ _ _ _ hadd
    exact ⟨o, o', hadd, ho, ho', hwithout rfl rfl⟩
  · have hyields : Yields unset machine () (unset.outcome machine).2 :=
      yields_of_toBool (by decide +kernel)
    obtain ⟨found, done, store', hopened, hadd, hholds⟩ := hunset _ _ _ _ _ hyields
    exact ⟨_, found, done, store', hyields, hopened, hadd, hholds⟩

end OrderedEnv
