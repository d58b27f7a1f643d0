import OrderedEnv.Proofs.Evaluation.LastDeclaration
import OrderedEnv.Proofs.Evaluation.Replay
import OrderedEnv.Proofs.Evaluation.Secrecy

/-!
# What a view hides

A view with secrets hidden shows a mark in place of a secret value. The values of a view come from a
table, and what is hidden is settled by the flag of an entry. So the question is which command left
the entry behind: one of a declaration that is marked secret, or none at all. In the second case the
entry is that of the ambient environment, in which nothing is secret.

* `View.render_hides_declaredSecrets` — what is shown of a variable that is only declared secret
* `View.render_shows_untouched` — a variable that is declared secret and shown
-/

namespace OrderedEnv

open Expansion (Binding)

/-! ## The declaration behind an entry -/

namespace Outcome

variable {ds : List Declaration} {ambient : Environment} {key : String} {b : Binding}

theorem exists_of_mem_history {c : Command} (h : c ∈ (outcome ds ambient).history) :
    ∃ d ∈ ds, ∃ f, d.command f = c := by
  obtain ⟨i, hi⟩ := List.getElem?_of_mem h
  rw [Reaching.getElem?_history] at hi
  obtain ⟨d, hd, hc⟩ := Option.map_eq_some_iff.mp hi
  exact ⟨d, List.mem_of_getElem? hd, _, hc⟩

theorem exists_command_mem_history (ambient : Environment) {d : Declaration} (h : d ∈ ds) :
    ∃ f, d.command f ∈ (outcome ds ambient).history := by
  obtain ⟨i, hi⟩ := List.getElem?_of_mem h
  have hc := Reaching.getElem?_history ds ambient i
  rw [hi] at hc
  exact ⟨_, List.mem_of_getElem? hc⟩

/-- An entry of the final table was set by a declaration, or no declaration changed the variable and
the entry is ambient. -/
theorem finalTable_cases (h : (finalTable ds ambient)[key]? = some b) :
    (∃ d ∈ ds, d.Sets ∧ d.key = key ∧ ∃ f, d.resolve f = b) ∨
      ((∀ d ∈ ds, d.target? ≠ some key) ∧ ambient[key]? = some b.value ∧ b.sensitive = false) := by
  rw [getElem?_finalTable] at h
  cases hlast : (outcome ds ambient).history.last? key with
  | some c =>
    rw [hlast] at h
    have hset := c.eq_set_of_binding? (History.target?_of_last? hlast) h
    obtain ⟨d, hd, f, hc⟩ :=
      exists_of_mem_history (List.mem_filter.mp (List.mem_of_getLast? hlast)).1
    have hcommand := hc.trans hset
    have hsets := Declaration.sets_of_command_eq_set hcommand
    rw [Declaration.command_of_sets hsets] at hcommand
    obtain ⟨hkey, hvalue, hsensitive⟩ := Command.set.inj hcommand
    refine .inl ⟨d, hd, hsets, hkey, f, ?_⟩
    show Binding.mk (d.resolve f).value (d.resolve f).sensitive = _
    rw [hvalue, hsensitive]
  | none =>
    rw [hlast] at h
    obtain ⟨value, hvalue, rfl⟩ := Option.map_eq_some_iff.mp h
    refine .inr ⟨?_, hvalue, rfl⟩
    intro d hd htarget
    obtain ⟨f, hmem⟩ := exists_command_mem_history ambient hd
    have hnil := List.getLast?_eq_none_iff.mp hlast
    have hnot := List.filter_eq_nil_iff.mp hnil _ hmem
    rw [Declaration.target?_command, htarget] at hnot
    simp at hnot

end Outcome

theorem Declaration.sensitive_resolve {d : Declaration} (h : d.options.sensitive = true)
    (f : String → Option Binding) : (d.resolve f).sensitive = true := by
  show (d.options.sensitive || _) = true
  rw [h, Bool.true_or]

namespace View

variable {ds : List Declaration} {ambient : Environment} {key : String} {b : Binding}

/-! ## The tables of a view -/

/-- An entry that is not evaluated was written by the last declaration of the variable. -/
theorem getElem?_written (ds : List Declaration) (key : String) :
    (written ds)[key]? =
      (Declaration.lastIn? ds key).bind fun d => (writtenCommand d).binding? := by
  have htarget : ∀ d : Declaration, (writtenCommand d).target? = some d.key := by
    intro d
    unfold writtenCommand
    split <;> rfl
  have hlast : History.last? (ds.map writtenCommand) key =
      (Declaration.lastIn? ds key).map writtenCommand := by
    rw [History.last?, List.filter_map, List.getLast?_map, Declaration.lastIn?]
    simp only [Function.comp_def, htarget, Option.some.injEq]
  rw [written_eq_replay, Table.getElem?_replay, hlast]
  cases Declaration.lastIn? ds key <;> simp

theorem exists_of_written (h : (written ds)[key]? = some b) :
    ∃ d, Declaration.lastIn? ds key = some d ∧ d.options.unset = false ∧
      b = ⟨d.value, d.options.sensitive⟩ := by
  rw [getElem?_written] at h
  obtain ⟨d, hlast, hd⟩ := Option.bind_eq_some_iff.mp h
  unfold writtenCommand at hd
  split at hd
  · cases hd
  · next hu => exact ⟨d, hlast, Bool.eq_false_iff.mpr hu, (Option.some.inj hd).symm⟩

/-- An evaluated entry is that of the final table. -/
theorem getElem?_evaluated_outcome (ds : List Declaration) (ambient : Environment) (key : String) :
    (evaluated (outcome ds ambient))[key]? =
      if key ∈ ds.map Declaration.key then (Outcome.finalTable ds ambient)[key]? else none := by
  rw [getElem?_evaluated, Outcome.getElem?_declared, Outcome.environment_outcome,
    Table.getElem?_values]
  split
  · cases hentry : (Outcome.finalTable ds ambient)[key]? with
    | none => rfl
    | some b =>
      have hflag : (outcome ds ambient).sensitiveKeys.contains key = b.sensitive := by
        rw [Bool.eq_iff_iff, ← Std.ExtTreeSet.mem_iff_contains, Outcome.mem_sensitiveKeys, hentry]
        cases b
        simp
      rw [Option.map_some, Option.map_some, hflag]
  · rfl

/-- Every declaration of the variable is skipped. -/
def Untouched (ds : List Declaration) (key : String) : Prop :=
  ∀ d ∈ ds, d.key = key → d.options.unset = false ∧ d.isSkipped = true

theorem untouched_iff : Untouched ds key ↔ ∀ d ∈ ds, d.target? ≠ some key := by
  refine forall₂_congr fun d _ => ?_
  unfold Declaration.target?
  cases d.options.unset <;> cases d.isSkipped <;> simp

/-! ## The view -/

/-- What is shown comes from an entry. -/
theorem exists_of_shown {options : ViewOptions} (hr : options.redact = true) {table : Table}
    {value : String} (h : (shown options table)[key]? = some value) :
    ∃ b, table[key]? = some b ∧ (options.sensitiveOnly = true → b.sensitive = true) ∧
      value = if b.sensitive then redacted else b.value := by
  rw [getElem?_shown] at h
  obtain ⟨b, hb, rfl⟩ := Option.map_eq_some_iff.mp h
  obtain ⟨hentry, honly⟩ := Option.filter_eq_some_iff.mp hb
  refine ⟨b, hentry, fun hs => ?_, ?_⟩
  · simpa [hs] using honly
  · rw [shownValue, hr, Bool.true_and]

variable {options : ViewOptions} {value : String}

theorem eq_redacted_of_written (hr : options.redact = true)
    (hs : ∀ d ∈ ds, d.key = key → d.options.sensitive = true)
    (h : (shown options (written ds))[key]? = some value) : value = redacted := by
  obtain ⟨b, hb, -, hshown⟩ := exists_of_shown hr h
  obtain ⟨d, hlast, -, rfl⟩ := exists_of_written hb
  obtain ⟨hd, hkey⟩ := Declaration.mem_of_lastIn? hlast
  rw [hshown, hs d hd hkey, if_pos rfl]

theorem evaluated_cases (hr : options.redact = true)
    (hs : ∀ d ∈ ds, d.key = key → d.options.sensitive = true)
    (h : (shown options (evaluated (outcome ds ambient)))[key]? = some value) :
    (¬Untouched ds key ∧ value = redacted) ∨
      (Untouched ds key ∧ options.sensitiveOnly = false ∧ ambient[key]? = some value) := by
  obtain ⟨b, hb, honly, hshown⟩ := exists_of_shown hr h
  rw [getElem?_evaluated_outcome] at hb
  split at hb
  · rcases Outcome.finalTable_cases hb with ⟨d, hd, hsets, hkey, f, rfl⟩ | ⟨huntouched, ha, hf⟩
    · -- the declaration that set the entry is marked, and it is not skipped
      refine .inl ⟨fun hskip => ?_, ?_⟩
      · have hskipped := (hskip d hd hkey).2
        rw [hsets.isSkipped] at hskipped
        cases hskipped
      · rw [hshown, Declaration.sensitive_resolve (hs d hd hkey) f, if_pos rfl]
    · -- the entry is ambient, so it carries no flag
      rw [hf, if_neg Bool.false_ne_true] at hshown
      refine .inr ⟨untouched_iff.mpr huntouched, ?_, hshown ▸ ha⟩
      cases hsensitiveOnly : options.sensitiveOnly with
      | false => rfl
      | true => exact absurd ((honly hsensitiveOnly).symm.trans hf) (by decide)
  · cases hb

/-- A view of written values never fails, one of evaluated values fails with its source. -/
theorem exists_render_iff (ds : List Declaration) (options : ViewOptions) (source : Source) :
    (∃ view, render ds options source = .ok view) ↔
      (options.expand = true → ∃ ambient, source.snapshot = .ok ambient) := by
  unfold render
  cases options.expand with
  | false => simp
  | true => cases hsource : source.snapshot <;> simp [evaluate, hsource, Except.map]

/--
**A variable that is only ever declared secret is hidden, unless no declaration touches it.**

In a view with secrets hidden, a variable is shown of which every declaration is marked secret. If
values are evaluated and every one of its declarations is skipped, then it has its ambient value,
which was never declared, and the value is shown. This does not happen in a view of secrets only. In
any other case the value is hidden.
-/
theorem render_hides_declaredSecrets (ds : List Declaration) {options : ViewOptions}
    (hr : options.redact = true) (source : Source) :
    ((∃ view, render ds options source = .ok view) ↔
        (options.expand = true → ∃ ambient, source.snapshot = .ok ambient)) ∧
      ∀ view key value, render ds options source = .ok view → view[key]? = some value →
        (∀ d ∈ ds, d.key = key → d.options.sensitive = true) →
        (¬(options.expand = true ∧ Untouched ds key) → value = redacted) ∧
        (options.expand = true → Untouched ds key → options.sensitiveOnly = false ∧
          ∃ ambient, source.snapshot = .ok ambient ∧ ambient[key]? = some value) := by
  refine ⟨exists_render_iff ds options source, ?_⟩
  intro view key value hview hvalue hs
  unfold render at hview
  cases hx : options.expand with
  | false =>
    simp only [hx, Bool.false_eq_true, if_false, Except.ok.injEq] at hview
    rw [← hview] at hvalue
    exact ⟨fun _ => eq_redacted_of_written hr hs hvalue, fun h => Bool.noConfusion h⟩
  | true =>
    cases hsource : source.snapshot with
    | error cause => simp [hx, evaluate, hsource, Except.map] at hview
    | ok ambient =>
      simp only [hx, if_true, evaluate_eq_ok hsource, Except.map, Except.ok.injEq] at hview
      rw [← hview] at hvalue
      rcases evaluated_cases hr hs hvalue with ⟨hnot, hredacted⟩ | ⟨huntouched, honly, ha⟩
      · exact ⟨fun _ => hredacted, fun _ huntouched => absurd huntouched hnot⟩
      · exact ⟨fun hnot => absurd ⟨rfl, huntouched⟩ hnot, fun _ _ => ⟨honly, ambient, rfl, ha⟩⟩

/-- A token that is skipped at first and set then is hidden. Another one is only skipped, and what is
shown of it is its ambient value. -/
theorem render_hides_declaredSecrets_tokens :
    let skipped (key : String) : Declaration :=
      { key, value := "", options := { sensitive := true, skipIfEmpty := true } }
    let ds : List Declaration :=
      [skipped "A", skipped "B", { key := "A", value := "abc", options := { sensitive := true } }]
    let options : ViewOptions := { expand := true, redact := true }
    let ambient : Environment := .ofPairs [("A", "old"), ("B", "kept")]
    options.redact = true ∧ (∀ d ∈ ds, d.options.sensitive = true) ∧
      ¬Untouched ds "A" ∧ Untouched ds "B" ∧
      ∃ view, render ds options (.table ambient) = .ok view ∧ view["A"]? = some redacted ∧
        ∃ value, view["B"]? = some value ∧ ambient["B"]? = some value := by
  intro skipped ds options ambient
  have hs : ∀ d ∈ ds, d.options.sensitive = true := by decide
  have hA : ¬Untouched ds "A" := by simp [Untouched, ds, skipped, Declaration.isSkipped]
  have hB : Untouched ds "B" := by simp [Untouched, ds, skipped, Declaration.isSkipped]
  have hr : options.redact = true := rfl
  obtain ⟨hexists, hshown⟩ := render_hides_declaredSecrets ds hr (.table ambient)
  obtain ⟨view, hview⟩ := hexists.mpr fun _ => ⟨ambient, rfl⟩
  have hviewA : view["A"]?.isSome = true := by
    obtain rfl := Except.ok.inj hview
    decide +kernel
  have hviewB : view["B"]?.isSome = true := by
    obtain rfl := Except.ok.inj hview
    decide +kernel
  obtain ⟨a, ha⟩ := Option.isSome_iff_exists.mp hviewA
  obtain ⟨b, hb⟩ := Option.isSome_iff_exists.mp hviewB
  obtain ⟨hhidden, -⟩ := hshown view "A" a hview ha fun d hd _ => hs d hd
  obtain ⟨-, huntouched⟩ := hshown view "B" b hview hb fun d hd _ => hs d hd
  obtain ⟨-, _, hsource, hambient⟩ := huntouched rfl hB
  obtain rfl := Except.ok.inj hsource
  exact ⟨hr, hs, hA, hB, view, hview, hhidden (fun h => hA h.2) ▸ ha, b, hb, hambient⟩

/-- A token is declared once, marked secret, and skipped because its value is empty. A view with
secrets hidden shows the ambient value of the same name. -/
theorem render_shows_untouched :
    let ds : List Declaration :=
      [{ key := "TOKEN", value := "", options := { sensitive := true, skipIfEmpty := true } }]
    let options : ViewOptions := { expand := true, redact := true }
    (∀ d ∈ ds, d.options.sensitive = true) ∧
      ∃ view, render ds options (.table (.ofPairs [("TOKEN", "hunter2")])) = .ok view ∧
        view["TOKEN"]? = some "hunter2" ∧ view["TOKEN"]? ≠ some redacted := by
  exact ⟨by decide, _, rfl, by decide +kernel, by decide +kernel⟩

end View

end OrderedEnv
