import OrderedEnv.Proofs.Evaluation.Covering

/-!
# Evaluation in two parts

A list of declarations can be cut in two. The first part is evaluated, and then the second part
over the environment that the first one left. Values come out as if the list had been evaluated in
one go.

Only secrecy is lost on the way: an environment does not tell which of its values are secret. So the
second part, evaluated by itself, may take a secret for a plain value, but never the other way round
(`evaluate_append`).

The table in the middle and the one that is made of its environment hold the same values, and what
is secret in the latter is secret in the former. So what the second part does from the one table is
covered by what it does from the other (`run_coveredBy`).
-/

namespace OrderedEnv

open Expansion (Binding)

/-! ## A run in two parts -/

/-- A run over a list goes on where the run over its first part stopped. -/
theorem run_append (table : Table) (ds es : List Declaration) :
    run table (ds ++ es) =
      ((run (run table ds).1 es).1, (run table ds).2 ++ (run (run table ds).1 es).2) := by
  induction ds generalizing table with
  | nil => rfl
  | cons d rest ih =>
    simp only [List.cons_append, run]
    rw [ih]

namespace Table

/-- The table of an environment has no secrets, so it is covered by any table with its values. -/
theorem ofEnvironment_values_coveredBy (table : Table) :
    (ofEnvironment table.values).Related Binding.CoveredBy table := by
  intro name
  show Option.Rel _ (ofEnvironment table.values)[name]? table[name]?
  rw [getElem?_ofEnvironment, getElem?_values]
  cases table[name]? with
  | none => exact .none
  | some b => exact .some ⟨rfl, fun h => nomatch h⟩

/-- A table without secrets is the table of its values. -/
theorem ofEnvironment_values {table : Table}
    (h : ∀ key value : String, table[key]? ≠ some ⟨value, true⟩) :
    ofEnvironment table.values = table := by
  ext key : 1
  rw [getElem?_ofEnvironment, getElem?_values]
  cases hb : table[key]? with
  | none => rfl
  | some b =>
    obtain ⟨value, sensitive⟩ := b
    cases sensitive with
    | false => rfl
    | true => exact absurd hb (h key value)

end Table

/-! ## The outcome -/

namespace Outcome

/-- What a whole evaluation owes to the evaluation of a first part, and of the rest over the
environment that the first part left. -/
structure IsComposedOf (whole first second : Outcome) : Prop where
  /-- The history begins with that of the first part. It goes on with the commands of the second
  part, some of which may be secret only now. -/
  history : ∃ rest, whole.history = first.history ++ rest ∧
    List.Forall₂ Command.CoveredBy second.history rest
  environment : whole.environment = second.environment
  sensitiveKeys : ∀ key ∈ second.sensitiveKeys, key ∈ whole.sensitiveKeys
  /-- If the first part left no secrets, nothing is lost. -/
  plain : first.sensitiveKeys = ∅ →
    whole.history = first.history ++ second.history ∧ whole.sensitiveKeys = second.sensitiveKeys

variable (ds es : List Declaration) (ambient : Environment)

theorem history_append :
    (outcome (ds ++ es) ambient).history =
      (outcome ds ambient).history ++ (run (finalTable ds ambient) es).2 := by
  show (run _ (ds ++ es)).2 = _
  rw [run_append]
  rfl

theorem finalTable_append :
    finalTable (ds ++ es) ambient = (run (finalTable ds ambient) es).1 := by
  rw [finalTable, run_append]
  rfl

/-- Without secrets, the second part starts from the very table that the first part left. -/
theorem finalTable_eq_of_plain (h : (outcome ds ambient).sensitiveKeys = ∅) :
    Table.ofEnvironment (outcome ds ambient).environment = finalTable ds ambient := by
  refine Table.ofEnvironment_values fun key value hkey => ?_
  have hmem := (mem_sensitiveKeys ds ambient key).mpr ⟨value, hkey⟩
  rw [h] at hmem
  simp at hmem

theorem isComposedOf_append :
    (outcome (ds ++ es) ambient).IsComposedOf (outcome ds ambient)
      (outcome es (outcome ds ambient).environment) := by
  obtain ⟨htable, hhistory⟩ :=
    run_coveredBy (List.forall₂_same.mpr fun d _ => .refl d)
      (finalTable ds ambient).ofEnvironment_values_coveredBy
  refine ⟨⟨_, history_append ds es ambient, hhistory⟩, ?_, ?_, ?_⟩
  · rw [environment_outcome, finalTable_append]
    exact htable.values_eq.symm
  · intro key hkey
    obtain ⟨value, hvalue⟩ := (mem_sensitiveKeys _ _ key).mp hkey
    rw [mem_sensitiveKeys, finalTable_append]
    exact ⟨value, htable.secret hvalue⟩
  · intro hplain
    have hstart := finalTable_eq_of_plain ds ambient hplain
    refine ⟨?_, ?_⟩
    · rw [history_append, ← hstart]
      rfl
    · ext key
      rw [mem_sensitiveKeys, mem_sensitiveKeys, finalTable_append, ← hstart]
      rfl

end Outcome

/--
**Evaluation composes.**

Over a source that can be read, a list, its first part, and the rest over the environment that the
first part leaves, are all evaluated, and the outcome of the list is composed of the two others.
-/
theorem evaluate_append (ds es : List Declaration) {source : Source} {ambient : Environment}
    (h : source.snapshot = .ok ambient) :
    ∃ whole first second, evaluate (ds ++ es) source = .ok whole ∧
      evaluate ds source = .ok first ∧ evaluate es (.table first.environment) = .ok second ∧
      whole.IsComposedOf first second :=
  ⟨_, _, _, evaluate_eq_ok h _, evaluate_eq_ok h _, evaluate_eq_ok rfl _,
    Outcome.isComposedOf_append ds es ambient⟩

/-- The token of the first part is put into an address by the second. Evaluated by itself, the
second part does not know that the address is secret. -/
theorem evaluate_append_token :
    let ds : List Declaration :=
      [{ key := "TOKEN", value := "abc", options := { sensitive := true } }]
    let es : List Declaration :=
      [{ key := "URL", value := "https://$TOKEN@host" }, { key := "TOKEN", value := "none" }]
    Source.snapshot .empty = .ok ∅ ∧
      ∃ whole first second, evaluate (ds ++ es) .empty = .ok whole ∧
        evaluate ds .empty = .ok first ∧ evaluate es (.table first.environment) = .ok second ∧
        whole.IsComposedOf first second ∧ "URL" ∈ whole.sensitiveKeys ∧
        "URL" ∉ second.sensitiveKeys := by
  intro ds es
  have hsource : Source.snapshot .empty = .ok ∅ := rfl
  obtain ⟨whole, first, second, hwhole, hfirst, hsecond, hcomposed⟩ :=
    evaluate_append ds es hsource
  obtain rfl : outcome (ds ++ es) ∅ = whole := Except.ok.inj hwhole
  obtain rfl : outcome ds ∅ = first := Except.ok.inj hfirst
  obtain rfl : outcome es (outcome ds ∅).environment = second := Except.ok.inj hsecond
  exact ⟨hsource, _, _, _, rfl, rfl, rfl, hcomposed, by decide +kernel, by decide +kernel⟩

end OrderedEnv
