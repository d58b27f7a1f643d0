import OrderedEnv.Proofs.View

/-!
# The two views of a list

A list can be shown as it was written or as evaluation leaves it. The first view knows nothing of
the ambient environment and of skipping, and is made by a table of its own. As long as no
declaration is skipped, the two tables hold the same variables, and each entry comes from the last
declaration of its variable (`View.entries_cases`): as it is written in the one, with its references
replaced in the other.

So what the two views have in common is said about one declaration (`View.render_consistent`).
-/

namespace OrderedEnv

namespace View

open Declaration (lastIn?)
open Expansion (Binding)

variable {ds : List Declaration} {key : String} {options : ViewOptions}

/-! ## Entries -/

/-- **Nothing is left of a variable in both tables, or what its last declaration says.** -/
theorem entries_cases (h : ∀ d ∈ ds, d.options.unset = false → d.isSkipped = false)
    (ambient : Environment) (key : String) :
    ((written ds)[key]? = none ∧ (evaluated (outcome ds ambient))[key]? = none) ∨
      ∃ d f, lastIn? ds key = some d ∧
        (written ds)[key]? = some ⟨d.value, d.options.sensitive⟩ ∧
        (evaluated (outcome ds ambient))[key]? = some (d.resolve f) := by
  rw [getElem?_written, getElem?_evaluated_outcome]
  cases hlast : lastIn? ds key with
  | none =>
    rw [if_neg (Declaration.lastIn?_eq_none_iff.mp hlast)]
    exact .inl ⟨rfl, rfl⟩
  | some d =>
    obtain ⟨hd, hkey⟩ := Declaration.mem_of_lastIn? hlast
    rw [if_pos (List.mem_map.mpr ⟨d, hd, hkey⟩), Option.bind_some, writtenCommand]
    cases hu : d.options.unset with
    | true => exact .inl ⟨rfl, Outcome.getElem?_finalTable_of_unset hlast hu ambient⟩
    | false =>
      obtain ⟨f, hf⟩ := Outcome.exists_getElem?_finalTable_of_sets hlast ⟨hu, h d hd hu⟩ ambient
      exact .inr ⟨d, f, rfl, rfl, hf⟩

theorem mem_shown_iff {table : Table} :
    key ∈ shown options table ↔
      ∃ b, table[key]? = some b ∧ (options.sensitiveOnly = true → b.sensitive = true) := by
  rw [Std.ExtTreeMap.mem_iff_isSome_getElem?, getElem?_shown, Option.isSome_map,
    Option.isSome_filter]
  cases table[key]? with
  | none => simp
  | some b => cases options.sensitiveOnly <;> simp

/-! ## Views -/

/-- What the view of evaluated values owes to the view of written ones, with the same options. -/
structure Consistent (ds : List Declaration) (options : ViewOptions)
    (raw expanded : Environment) : Prop where
  /-- The same variables are shown, unless only secrets are. -/
  keys : options.sensitiveOnly = false → ∀ key, key ∈ raw ↔ key ∈ expanded
  /-- In any case, no variable is lost: what was declared secret is a secret. -/
  subset : ∀ key ∈ raw, key ∈ expanded
  /-- A value is shown as it was written, if that is not expanded or has nothing to expand. -/
  values : options.sensitiveOnly = false → options.redact = false →
    ∀ key d, lastIn? ds key = some d → (d.options.expand = false ∨ '$' ∉ d.value.toList) →
      raw[key]? = expanded[key]?
  /-- What is hidden because it was declared secret stays hidden. -/
  hidden : options.redact = true →
    ∀ key ∈ raw, ∀ d, lastIn? ds key = some d → d.options.sensitive = true →
      raw[key]? = some redacted ∧ expanded[key]? = some redacted

/-- **The tables of the two views are shown consistently.** -/
theorem consistent_shown (h : ∀ d ∈ ds, d.options.unset = false → d.isSkipped = false)
    (options : ViewOptions) (ambient : Environment) :
    Consistent ds options (shown options (written ds))
      (shown options (evaluated (outcome ds ambient))) where
  keys honly key := by
    rw [mem_shown_iff, mem_shown_iff]
    rcases entries_cases h ambient key with ⟨hraw, hexpanded⟩ | ⟨e, f, -, hraw, hexpanded⟩
    · simp [hraw, hexpanded]
    · simp [hraw, hexpanded, honly]
  subset key hkey := by
    rw [mem_shown_iff] at hkey ⊢
    obtain ⟨b, hb, honly⟩ := hkey
    rcases entries_cases h ambient key with ⟨hraw, -⟩ | ⟨e, f, -, hraw, hexpanded⟩
    · rw [hraw] at hb
      cases hb
    · obtain rfl := Option.some.inj (hraw.symm.trans hb)
      exact ⟨e.resolve f, hexpanded, fun ho => Declaration.sensitive_resolve (honly ho) f⟩
  values _ _ key d hd hplain := by
    rw [getElem?_shown, getElem?_shown]
    rcases entries_cases h ambient key with ⟨hraw, hexpanded⟩ | ⟨e, f, he, hraw, hexpanded⟩
    · rw [hraw, hexpanded]
    · obtain rfl := Option.some.inj (hd.symm.trans he)
      rw [hraw, hexpanded, Declaration.resolve_of_plain hplain]
  hidden hr key hkey d hd hs := by
    rw [mem_shown_iff] at hkey
    obtain ⟨b, hb, -⟩ := hkey
    rw [getElem?_shown, getElem?_shown]
    rcases entries_cases h ambient key with ⟨hraw, -⟩ | ⟨e, f, he, hraw, hexpanded⟩
    · rw [hraw] at hb
      cases hb
    · obtain rfl := Option.some.inj (hd.symm.trans he)
      simp [hraw, hexpanded, shownValue, hr, hs, Declaration.sensitive_resolve hs f]

/--
**The two views of a list are consistent.**

No declaration that sets a variable is skipped, and the source can be read. Then both views are
shown, whatever else is wished of them. They show the same variables, and the same value for a
variable whose last declaration has nothing to expand. Where only secrets are shown, every variable
of the view of written values is in the other view as well, and what is hidden in the one because it
was declared secret is hidden in the other.
-/
theorem render_consistent (h : ∀ d ∈ ds, d.options.unset = false → d.isSkipped = false)
    {source : Source} {ambient : Environment} (hs : source.snapshot = .ok ambient)
    (options : ViewOptions) :
    ∃ raw expanded, render ds { options with expand := false } source = .ok raw ∧
      render ds { options with expand := true } source = .ok expanded ∧
      Consistent ds options raw expanded := by
  refine ⟨_, _, rfl, ?_, consistent_shown h options ambient⟩
  rw [render, if_pos rfl, evaluate_eq_ok hs]
  rfl

/-- A token is put into an address, a variable is set and removed, and another one is ambient. Of
the written values only the token is secret, of the evaluated ones the address, too. -/
theorem render_consistent_token :
    let ds : List Declaration :=
      [{ key := "TOKEN", value := "abc", options := { sensitive := true } },
        { key := "URL", value := "https://$TOKEN@host" }, { key := "GONE", value := "x" },
        .remove "GONE", { key := "PRICE", value := "$5", options := { expand := false } }]
    let ambient : Environment := .ofPairs [("HOME", "/root"), ("GONE", "y")]
    let options : ViewOptions := { sensitiveOnly := true, redact := true }
    (∀ d ∈ ds, d.options.unset = false → d.isSkipped = false) ∧
      (Source.table ambient).snapshot = .ok ambient ∧
      (∃ raw expanded, render ds { expand := false } (.table ambient) = .ok raw ∧
        render ds { expand := true } (.table ambient) = .ok expanded ∧
        (∀ key, key ∈ raw ↔ key ∈ expanded) ∧ raw["PRICE"]? = expanded["PRICE"]?) ∧
      ∃ raw expanded, render ds { options with expand := false } (.table ambient) = .ok raw ∧
        render ds { options with expand := true } (.table ambient) = .ok expanded ∧
        (∀ key ∈ raw, key ∈ expanded) ∧ "TOKEN" ∈ raw ∧
        raw["TOKEN"]? = some redacted ∧ expanded["TOKEN"]? = some redacted ∧
        "URL" ∈ expanded ∧ "URL" ∉ raw := by
  intro ds ambient options
  have hskip : ∀ d ∈ ds, d.options.unset = false → d.isSkipped = false := by decide
  have hsource : (Source.table ambient).snapshot = .ok ambient := rfl
  refine ⟨hskip, hsource, ?_, ?_⟩
  · obtain ⟨raw, expanded, hraw, hexpanded, hconsistent⟩ := render_consistent hskip hsource {}
    exact ⟨raw, expanded, hraw, hexpanded, hconsistent.keys rfl,
      hconsistent.values rfl rfl "PRICE" _ rfl (.inl rfl)⟩
  · obtain ⟨raw, expanded, hraw, hexpanded, hconsistent⟩ := render_consistent hskip hsource options
    obtain rfl := Except.ok.inj hraw
    obtain rfl := Except.ok.inj hexpanded
    have htoken : "TOKEN" ∈ shown options (written ds) := by decide +kernel
    obtain ⟨hhidden, hhidden'⟩ := hconsistent.hidden rfl "TOKEN" htoken _ rfl rfl
    exact ⟨_, _, rfl, rfl, hconsistent.subset, htoken, hhidden, hhidden', by decide +kernel,
      by decide +kernel⟩

end View

end OrderedEnv
