import Mathlib.Data.List.Forall2
import OrderedEnv.Proofs.Evaluation.Outcome

/-!
# Two evaluations side by side

Two evaluations are often compared that start from different tables, or go over different lists.
What they do is then compared value by value, with a relation between values that depends on the
question.

Evaluation does three things with values: it puts them together, marks them as secret and keeps them
in a table. So a relation that holds of equal values, and of joined values if it holds of the parts,
holds all along the way (`run_related`).
-/

namespace OrderedEnv

open Expansion

/-- A relation between values that is kept when values are joined. -/
structure Expansion.Binding.Compatible (R : Binding → Binding → Prop) : Prop where
  refl : ∀ b, R b b
  append : ∀ {a b c d : Binding}, R a b → R c d → R (a ++ c) (b ++ d)

/-- Two look-ups find the same names, with related values. -/
def LookupsRelated (R : Binding → Binding → Prop) (f g : String → Option Binding) : Prop :=
  ∀ name, Option.Rel R (f name) (g name)

/-- Two tables hold the same names, with related values. -/
def Table.Related (R : Binding → Binding → Prop) (a b : Table) : Prop :=
  LookupsRelated R (fun name => a[name]?) (fun name => b[name]?)

variable {R : Binding → Binding → Prop} {f g : String → Option Binding}

/-! ## Expansion -/

namespace Expansion

theorem Segment.resolve_related (hR : Binding.Compatible R) (h : LookupsRelated R f g)
    (segment : Segment) : R (segment.resolve f) (segment.resolve g) := by
  cases segment with
  | literal text => exact hR.refl _
  | reference name =>
    show R ((f name).getD _) ((g name).getD _)
    have hn := h name
    generalize f name = x at hn
    generalize g name = y at hn
    cases hn with
    | some hb => exact hb
    | none => exact hR.refl _

/-- What was put together so far is related, and it still is at the end. -/
theorem foldl_resolve_related (hR : Binding.Compatible R) (h : LookupsRelated R f g)
    (segments : List Segment) {a b : Binding} (hab : R a b) :
    R (segments.foldl (fun done segment => done ++ segment.resolve f) a)
      (segments.foldl (fun done segment => done ++ segment.resolve g) b) := by
  induction segments generalizing a b with
  | nil => exact hab
  | cons segment rest ih => exact ih (hR.append hab (segment.resolve_related hR h))

theorem expand_related (hR : Binding.Compatible R) (h : LookupsRelated R f g) (value : String) :
    R (expand f value) (expand g value) :=
  foldl_resolve_related hR h (parse value) (hR.refl _)

end Expansion

/-- The mark of a declaration is put in front of what it sets, like a secret without text. -/
theorem Declaration.resolve_eq_append (d : Declaration) (f : String → Option Binding) :
    d.resolve f = ⟨"", d.options.sensitive⟩ ++
      (if d.options.expand then expand f d.value else ⟨d.value, false⟩) := by
  show Binding.mk _ _ = Binding.mk _ _
  rw [String.empty_append]

/-- Lists that are related place by place, with the same variable at each place, are about the same
variables. -/
theorem Declaration.map_key_eq_of_forall₂ {R : Declaration → Declaration → Prop}
    (hR : ∀ d e, R d e → d.key = e.key) {ds es : List Declaration} (h : List.Forall₂ R ds es) :
    ds.map Declaration.key = es.map Declaration.key := by
  induction h with
  | nil => rfl
  | cons hde _ ih => rw [List.map_cons, List.map_cons, hR _ _ hde, ih]

/-! ## Tables -/

theorem Table.Related.refl (hR : Binding.Compatible R) (table : Table) : table.Related R table := by
  intro name
  show Option.Rel R table[name]? table[name]?
  cases table[name]? with
  | none => exact .none
  | some b => exact .some (hR.refl b)

/-- At one name there is nothing in both tables, or there are related values. -/
theorem Table.Related.getElem?_cases {a b : Table} (h : a.Related R b) (key : String) :
    (a[key]? = none ∧ b[key]? = none) ∨
      ∃ x y, a[key]? = some x ∧ b[key]? = some y ∧ R x y := by
  have hk : Option.Rel R a[key]? b[key]? := h key
  generalize a[key]? = u at hk
  generalize b[key]? = v at hk
  cases hk with
  | none => exact .inl ⟨rfl, rfl⟩
  | some hxy => exact .inr ⟨_, _, rfl, rfl, hxy⟩

theorem Table.Related.apply {a b : Table} {c c' : Command} (h : a.Related R b)
    (ht : c.target? = c'.target?) (hb : Option.Rel R c.binding? c'.binding?) :
    (a.apply c).Related R (b.apply c') := by
  intro name
  simp only [getElem?_apply, ← ht]
  split
  · exact hb
  · exact h name

/--
**Related tables stay related over a run.**

`C` compares the commands. It has to be finer than the comparison of what they leave in a table, and
to hold of the commands of declarations at the same place, as long as these find related values.
-/
theorem run_related {C : Command → Command → Prop}
    (hC : ∀ c c', C c c' → c.target? = c'.target? ∧ Option.Rel R c.binding? c'.binding?)
    {ds es : List Declaration}
    (h : List.Forall₂ (fun d e : Declaration =>
      ∀ f g, LookupsRelated R f g → C (d.command f) (e.command g)) ds es)
    {a b : Table} (hab : a.Related R b) :
    (run a ds).1.Related R (run b es).1 ∧ List.Forall₂ C (run a ds).2 (run b es).2 := by
  induction h generalizing a b with
  | nil => exact ⟨hab, .nil⟩
  | cons hde _ ih =>
    have hc := hde _ _ hab
    obtain ⟨ht, hb⟩ := hC _ _ hc
    obtain ⟨htable, hhistory⟩ := ih (hab.apply ht hb)
    exact ⟨htable, .cons hc hhistory⟩

end OrderedEnv
