import OrderedEnv.Proofs.Evaluation.Relating
import OrderedEnv.View

/-!
# Secrets stay secret

Somebody who may not see secret values looks at two lists of declarations, which differ at most in
the values of declarations that are marked secret. Whatever evaluation makes of the two lists, it
looks the same to them (`evaluate_indistinguishable`).

What looks the same is said for every kind of thing on the way, from the values of variables up to
whole outcomes, always by the name `Indistinguishable`. One lemma for each operation then says that
it takes things that look the same to things that look the same.

The only thing that a secret value may give away is whether it is empty, where that decides whether
the declaration is skipped. So this is asked of the two lists (`Declaration.SkippedAlike`).
-/

namespace OrderedEnv

open Expansion

/-! ## What looks the same -/

/-- Both are secret, or they are equal and none is. -/
structure Expansion.Binding.Indistinguishable (a b : Binding) : Prop where
  sensitive : a.sensitive = b.sensitive
  value : a.sensitive = false → a.value = b.value

/-- Two look-ups find the same names, and what they find looks the same. -/
def LookupsIndistinguishable (f g : String → Option Binding) : Prop :=
  ∀ name, Option.Rel Binding.Indistinguishable (f name) (g name)

/-- Two tables hold the same names, and what they hold looks the same. -/
def Table.Indistinguishable (a b : Table) : Prop :=
  LookupsIndistinguishable (fun name => a[name]?) (fun name => b[name]?)

/-- Two commands do the same to the same variable, and what they set looks the same. -/
inductive Command.Indistinguishable : Command → Command → Prop where
  | set (key : String) {a b : Binding} (h : a.Indistinguishable b) :
    Indistinguishable (.set key a.value a.sensitive) (.set key b.value b.sensitive)
  | unset (key : String) : Indistinguishable (.unset key) (.unset key)
  | skip (key : String) : Indistinguishable (.skip key) (.skip key)

/-- Two outcomes in which all that is not secret is the same. -/
structure Outcome.Indistinguishable (o p : Outcome) : Prop where
  history : List.Forall₂ Command.Indistinguishable o.history p.history
  keys : ∀ key, key ∈ o.environment ↔ key ∈ p.environment
  sensitiveKeys : o.sensitiveKeys = p.sensitiveKeys
  values : ∀ key, key ∉ o.sensitiveKeys → o.environment[key]? = p.environment[key]?

/-- Two declarations that differ at most in a secret value. -/
structure Declaration.SameButSecret (d e : Declaration) : Prop where
  key : d.key = e.key
  options : d.options = e.options
  value : d.options.sensitive = false → d.value = e.value

/-- Where a declaration is skipped for an empty value, both values are empty or none is. -/
def Declaration.SkippedAlike (d e : Declaration) : Prop :=
  d.options.skipIfEmpty = true → d.options.unset = false → (d.value = "" ↔ e.value = "")

/-! ## Expansion -/

namespace Expansion

theorem Binding.Indistinguishable.refl (b : Binding) : b.Indistinguishable b := ⟨rfl, fun _ => rfl⟩

theorem Binding.Indistinguishable.append {a b c d : Binding} (h : a.Indistinguishable b)
    (h' : c.Indistinguishable d) : (a ++ c).Indistinguishable (b ++ d) where
  sensitive := by
    rw [Binding.sensitive_append, Binding.sensitive_append, h.sensitive, h'.sensitive]
  value := by
    intro hs
    rw [Binding.sensitive_append, Bool.or_eq_false_iff] at hs
    rw [Binding.value_append, Binding.value_append, h.value hs.1, h'.value hs.2]

theorem Binding.compatible_indistinguishable : Binding.Compatible Binding.Indistinguishable :=
  ⟨.refl, .append⟩

end Expansion

/-! ## One declaration -/

namespace Declaration

variable {d e : Declaration} {f g : String → Option Binding}

/-- What two declarations set looks the same. -/
theorem resolve_indistinguishable (h : d.SameButSecret e) (hfg : LookupsIndistinguishable f g) :
    (d.resolve f).Indistinguishable (e.resolve g) := by
  cases hs : d.options.sensitive with
  | true =>
    -- marked secret: the values may differ in any way
    have hs' : e.options.sensitive = true := h.options ▸ hs
    refine ⟨?_, fun hfalse => ?_⟩
    · simp only [resolve, hs, hs', Bool.true_or]
    · simp only [resolve, hs, Bool.true_or, Bool.true_eq_false] at hfalse
  | false =>
    simp only [resolve, hs, Bool.false_or, ← h.options, ← h.value hs]
    split
    · exact expand_related Binding.compatible_indistinguishable hfg _
    · exact .refl _

theorem isSkipped_eq_of_skippedAlike (h : d.SameButSecret e) (hskip : d.SkippedAlike e)
    (hu : d.options.unset = false) : d.isSkipped = e.isSkipped := by
  unfold isSkipped
  rw [← h.options]
  cases hs : d.options.skipIfEmpty with
  | false => rfl
  | true =>
    rw [Bool.true_and, Bool.true_and, Bool.eq_iff_iff, String.isEmpty_iff, String.isEmpty_iff]
    exact hskip hs hu

/-- The commands of two declarations look the same. -/
theorem command_indistinguishable (h : d.SameButSecret e) (hskip : d.SkippedAlike e)
    (hfg : LookupsIndistinguishable f g) : (d.command f).Indistinguishable (e.command g) := by
  unfold command
  rw [← h.options, ← h.key]
  cases hu : d.options.unset with
  | true => exact .unset _
  | false =>
    rw [← isSkipped_eq_of_skippedAlike h hskip hu]
    cases hsk : d.isSkipped with
    | true => exact .skip _
    | false => exact .set _ (resolve_indistinguishable h hfg)

end Declaration

/-! ## A run -/

namespace Command.Indistinguishable

variable {c c' : Command}

theorem target?_eq (h : c.Indistinguishable c') : c.target? = c'.target? := by
  cases h <;> rfl

theorem rel_binding? (h : c.Indistinguishable c') :
    Option.Rel Binding.Indistinguishable c.binding? c'.binding? := by
  cases h with
  | set key h => exact .some h
  | unset key => exact .none
  | skip key => exact .none

end Command.Indistinguishable

theorem Table.Indistinguishable.apply {a b : Table} {c c' : Command} (h : a.Indistinguishable b)
    (hc : c.Indistinguishable c') : (a.apply c).Indistinguishable (b.apply c') :=
  Table.Related.apply h hc.target?_eq hc.rel_binding?

theorem Table.Indistinguishable.replay {a b : Table} {history history' : History}
    (h : a.Indistinguishable b)
    (hh : List.Forall₂ Command.Indistinguishable history history') :
    (a.replay history).Indistinguishable (b.replay history') := by
  induction hh generalizing a b with
  | nil => exact h
  | cons hc _ ih => exact ih (h.apply hc)

/-- **What a run leaves behind looks the same, and so does its history.** -/
theorem run_indistinguishable {ds es : List Declaration}
    (h : List.Forall₂ Declaration.SameButSecret ds es)
    (hskip : List.Forall₂ Declaration.SkippedAlike ds es) {a b : Table}
    (hab : a.Indistinguishable b) :
    (run a ds).1.Indistinguishable (run b es).1 ∧
      List.Forall₂ Command.Indistinguishable (run a ds).2 (run b es).2 := by
  refine run_related (fun c c' hc => ⟨hc.target?_eq, hc.rel_binding?⟩) ?_ hab
  clear hab
  induction h with
  | nil => exact .nil
  | cons hde _ ih =>
    cases hskip with
    | cons hsk hskip =>
      exact .cons (fun f g => Declaration.command_indistinguishable hde hsk) (ih hskip)

theorem Table.Indistinguishable.refl (table : Table) : table.Indistinguishable table :=
  Table.Related.refl Binding.compatible_indistinguishable table

/-! ## The outcome -/

namespace Table.Indistinguishable

variable {a b : Table}

/-- At one name there is nothing in both tables, or something that looks the same. -/
theorem getElem?_cases (h : a.Indistinguishable b) (key : String) :
    (a[key]? = none ∧ b[key]? = none) ∨
      ∃ x y, a[key]? = some x ∧ b[key]? = some y ∧ x.Indistinguishable y :=
  Table.Related.getElem?_cases h key

theorem mem_values_iff (h : a.Indistinguishable b) (key : String) :
    key ∈ a.values ↔ key ∈ b.values := by
  simp only [Std.ExtTreeMap.mem_iff_isSome_getElem?, Table.getElem?_values]
  rcases h.getElem?_cases key with ⟨ha, hb⟩ | ⟨x, y, ha, hb, _⟩
  · rw [ha, hb]
  · rw [ha, hb]
    simp

theorem secret_iff (h : a.Indistinguishable b) (key : String) :
    (∃ value, a[key]? = some ⟨value, true⟩) ↔ ∃ value, b[key]? = some ⟨value, true⟩ := by
  rcases h.getElem?_cases key with ⟨ha, hb⟩ | ⟨⟨x, s⟩, ⟨y, t⟩, ha, hb, hxy⟩
  · rw [ha, hb]
  · obtain rfl : s = t := hxy.sensitive
    rw [ha, hb]
    simp

theorem getElem?_values_eq (h : a.Indistinguishable b) {key : String}
    (hs : ¬∃ value, a[key]? = some ⟨value, true⟩) : a.values[key]? = b.values[key]? := by
  rw [Table.getElem?_values, Table.getElem?_values]
  rcases h.getElem?_cases key with ⟨ha, hb⟩ | ⟨⟨value, sensitive⟩, y, ha, hb, hxy⟩
  · rw [ha, hb]
  · cases sensitive with
    | true => exact absurd ⟨value, ha⟩ hs
    | false =>
      rw [ha, hb]
      exact congrArg some (hxy.value rfl)

end Table.Indistinguishable

/-- **Lists that differ at most in secret values have outcomes that look the same.** -/
theorem outcome_indistinguishable {ds es : List Declaration}
    (h : List.Forall₂ Declaration.SameButSecret ds es)
    (hskip : List.Forall₂ Declaration.SkippedAlike ds es) (ambient : Environment) :
    (outcome ds ambient).Indistinguishable (outcome es ambient) := by
  obtain ⟨htable, hhistory⟩ := run_indistinguishable h hskip (.refl (.ofEnvironment ambient))
  refine ⟨hhistory, htable.mem_values_iff, ?_, ?_⟩
  · ext key
    rw [Outcome.mem_sensitiveKeys, Outcome.mem_sensitiveKeys]
    exact htable.secret_iff key
  · intro key hkey
    rw [Outcome.mem_sensitiveKeys] at hkey
    exact htable.getElem?_values_eq hkey

/-! ## Views -/

namespace View

/-- With secrets hidden, things that look the same are shown the same. -/
theorem shownValue_eq {options : ViewOptions} (hr : options.redact = true) {a b : Binding}
    (h : a.Indistinguishable b) : shownValue options a = shownValue options b := by
  unfold shownValue
  rw [hr, ← h.sensitive]
  cases hs : a.sensitive with
  | true => rfl
  | false => exact h.value hs

theorem getElem?_shown (options : ViewOptions) (table : Table) (key : String) :
    (shown options table)[key]? =
      (table[key]?.filter fun b => !options.sensitiveOnly || b.sensitive).map
        (shownValue options) := by
  simp [shown]

/-- With secrets hidden, tables that look the same are shown the same. -/
theorem shown_eq {options : ViewOptions} (hr : options.redact = true) {a b : Table}
    (h : a.Indistinguishable b) : shown options a = shown options b := by
  ext key : 1
  rw [getElem?_shown, getElem?_shown]
  rcases h.getElem?_cases key with ⟨ha, hb⟩ | ⟨x, y, ha, hb, hxy⟩
  · rw [ha, hb]
  · rw [ha, hb, Option.filter_some, Option.filter_some, ← hxy.sensitive]
    split
    · exact congrArg some (shownValue_eq hr hxy)
    · rfl

/-- The command that a declaration is before it is evaluated. -/
def writtenCommand (d : Declaration) : Command :=
  if d.options.unset then .unset d.key else .set d.key d.value d.options.sensitive

/-- The table of written values is a replay too. -/
theorem written_eq_replay (ds : List Declaration) :
    written ds = Table.replay ∅ (ds.map writtenCommand) := by
  unfold written Table.replay
  rw [List.foldl_map]
  congr 1
  funext table d
  rw [writtenCommand]
  split <;> rfl

theorem writtenCommand_indistinguishable {d e : Declaration} (h : d.SameButSecret e) :
    (writtenCommand d).Indistinguishable (writtenCommand e) := by
  unfold writtenCommand
  rw [← h.key, ← h.options]
  split
  · exact .unset _
  · exact .set _ (a := ⟨_, _⟩) (b := ⟨_, _⟩) ⟨rfl, h.value⟩

/-- The tables of written values look the same, whatever is skipped. -/
theorem written_indistinguishable {ds es : List Declaration}
    (h : List.Forall₂ Declaration.SameButSecret ds es) :
    (written ds).Indistinguishable (written es) := by
  rw [written_eq_replay, written_eq_replay]
  refine Table.Indistinguishable.replay (.refl ∅) ?_
  rw [List.forall₂_map_left_iff, List.forall₂_map_right_iff]
  exact h.imp fun _ _ => writtenCommand_indistinguishable

theorem getElem?_evaluated (o : Outcome) (key : String) :
    (evaluated o)[key]? =
      o.declared[key]?.map fun value => ⟨value, o.sensitiveKeys.contains key⟩ := by
  simp [evaluated]

/-- The tables of evaluated values look the same. -/
theorem evaluated_indistinguishable {ds es : List Declaration}
    (h : List.Forall₂ Declaration.SameButSecret ds es) {ambient : Environment}
    (ho : (outcome ds ambient).Indistinguishable (outcome es ambient)) :
    (evaluated (outcome ds ambient)).Indistinguishable (evaluated (outcome es ambient)) := by
  intro key
  show Option.Rel _ (evaluated (outcome ds ambient))[key]? (evaluated (outcome es ambient))[key]?
  rw [getElem?_evaluated, getElem?_evaluated, Outcome.getElem?_declared, Outcome.getElem?_declared,
    Declaration.map_key_eq_of_forall₂ (fun _ _ hde => hde.key) h, ← ho.sensitiveKeys]
  split
  · by_cases hkey : key ∈ (outcome ds ambient).sensitiveKeys
    · -- a secret: the values may differ, but both are there or none is
      have hmem := ho.keys key
      rw [Std.ExtTreeMap.mem_iff_isSome_getElem?, Std.ExtTreeMap.mem_iff_isSome_getElem?] at hmem
      rw [Std.ExtTreeSet.mem_iff_contains] at hkey
      cases hd : (outcome ds ambient).environment[key]? with
      | none =>
        cases he : (outcome es ambient).environment[key]? with
        | none => exact .none
        | some value => simp [hd, he] at hmem
      | some value =>
        cases he : (outcome es ambient).environment[key]? with
        | none => simp [hd, he] at hmem
        | some value' => exact .some ⟨rfl, fun hs => by simp [hkey] at hs⟩
    · rw [ho.values key hkey]
      cases (outcome es ambient).environment[key]? with
      | none => exact .none
      | some value => exact .some (.refl _)
  · exact .none

/-- Nothing of a secret value is in the view of written values. -/
theorem render_written_eq {options : ViewOptions} (hr : options.redact = true)
    (hx : options.expand = false) {ds es : List Declaration}
    (h : List.Forall₂ Declaration.SameButSecret ds es) (source source' : Source) :
    render ds options source = render es options source' := by
  simp only [render, hx, Bool.false_eq_true, if_false]
  rw [shown_eq hr (written_indistinguishable h)]

/-- Nothing of a secret value is in the view of evaluated values. -/
theorem render_evaluated_eq {options : ViewOptions} (hr : options.redact = true)
    (hx : options.expand = true) {ds es : List Declaration}
    (h : List.Forall₂ Declaration.SameButSecret ds es)
    (hskip : List.Forall₂ Declaration.SkippedAlike ds es) {source source' : Source}
    (hs : source.snapshot = source'.snapshot) :
    render ds options source = render es options source' := by
  simp only [render, hx, if_true, evaluate, ← hs]
  cases source.snapshot with
  | error cause => rfl
  | ok ambient =>
    have ho := outcome_indistinguishable h hskip ambient
    exact congrArg Except.ok (shown_eq hr (evaluated_indistinguishable h ho))

end View

/-! ## Noninterference -/

/--
**Secret values have no influence on what is not secret.**

Two lists differ at most in the values of declarations that are marked secret. The view of written
values, with secrets hidden, is the same for both. If secret values do not decide what is skipped,
then over sources that give the same environment the two outcomes look the same, and so does every
view with secrets hidden.
-/
theorem evaluate_indistinguishable {ds es : List Declaration}
    (h : List.Forall₂ Declaration.SameButSecret ds es) {s t : Source}
    (hs : s.snapshot = t.snapshot) :
    (∀ options : ViewOptions, options.redact = true → options.expand = false →
      View.render ds options s = View.render es options t) ∧
    (List.Forall₂ Declaration.SkippedAlike ds es →
      (∀ ambient, s.snapshot = .ok ambient →
        ∃ o p, evaluate ds s = .ok o ∧ evaluate es t = .ok p ∧
          o.Indistinguishable p) ∧
      ∀ options : ViewOptions, options.redact = true →
        View.render ds options s = View.render es options t) := by
  refine ⟨fun options hr hx => View.render_written_eq hr hx h _ _, fun hskip => ⟨?_, ?_⟩⟩
  · intro ambient ha
    exact ⟨_, _, evaluate_eq_ok ha _, evaluate_eq_ok (hs ▸ ha) _,
      outcome_indistinguishable h hskip ambient⟩
  · intro options hr
    cases hx : options.expand with
    | false => exact View.render_written_eq hr hx h _ _
    | true => exact View.render_evaluated_eq hr hx h hskip hs

/-- A token is put into an address, and its variable then takes a plain value. Whatever the token
is, what is shown is the same. -/
theorem evaluate_indistinguishable_token :
    let declarations (token : String) : List Declaration :=
      [{ key := "TOKEN", value := token, options := { sensitive := true, skipIfEmpty := true } },
        { key := "URL", value := "https://$TOKEN@host" }, { key := "TOKEN", value := "none" }]
    let options : ViewOptions := { expand := true, redact := true }
    List.Forall₂ Declaration.SameButSecret (declarations "abc") (declarations "xyz") ∧
      List.Forall₂ Declaration.SkippedAlike (declarations "abc") (declarations "xyz") ∧
      (∃ o p, evaluate (declarations "abc") .empty = .ok o ∧
        evaluate (declarations "xyz") .empty = .ok p ∧ o.Indistinguishable p) ∧
      View.render (declarations "abc") options .empty =
        View.render (declarations "xyz") options .empty := by
  intro declarations options
  have h : List.Forall₂ Declaration.SameButSecret (declarations "abc") (declarations "xyz") :=
    .cons ⟨rfl, rfl, fun hs => nomatch hs⟩
      (.cons ⟨rfl, rfl, fun _ => rfl⟩ (.cons ⟨rfl, rfl, fun _ => rfl⟩ .nil))
  have hskip : List.Forall₂ Declaration.SkippedAlike (declarations "abc") (declarations "xyz") :=
    .cons (fun _ _ => by decide) (.cons (fun hs => nomatch hs) (.cons (fun hs => nomatch hs) .nil))
  obtain ⟨-, hrest⟩ := evaluate_indistinguishable h (s := .empty) (t := .empty) rfl
  obtain ⟨houtcome, hview⟩ := hrest hskip
  exact ⟨h, hskip, houtcome ∅ rfl, hview options rfl⟩

end OrderedEnv
