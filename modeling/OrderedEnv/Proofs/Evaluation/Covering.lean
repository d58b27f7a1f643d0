import OrderedEnv.Proofs.Evaluation.Relating

/-!
# The same but for secrets

What is marked as secret changes no value. Two lists are compared here that are the same but for
their marks, where the second one marks whatever the first one does. Everything that evaluation
makes of them is the same again but for secrets, and whatever is secret for the first list is secret
for the second one (`evaluate_coveredBy`).

`CoveredBy` is the relation for that, for every kind of thing on the way. It is kept from one
declaration to the next by `run_related`.
-/

namespace OrderedEnv

open Expansion (Binding)

/-! ## What is covered -/

/-- The same value, which the second one takes for a secret if the first one does. -/
structure Expansion.Binding.CoveredBy (a b : Binding) : Prop where
  value : a.value = b.value
  sensitive : a.sensitive = true → b.sensitive = true

/-- The same command, which the second one takes for a secret if the first one does. -/
inductive Command.CoveredBy : Command → Command → Prop where
  | set (key value : String) {s t : Bool} (h : s = true → t = true) :
    CoveredBy (.set key value s) (.set key value t)
  | unset (key : String) : CoveredBy (.unset key) (.unset key)
  | skip (key : String) : CoveredBy (.skip key) (.skip key)

/-- The same declaration, which the second one marks as secret if the first one does. What the two
are for plays no part. -/
structure Declaration.CoveredBy (d e : Declaration) : Prop where
  key : d.key = e.key
  value : d.value = e.value
  expand : d.options.expand = e.options.expand
  skipIfEmpty : d.options.skipIfEmpty = e.options.skipIfEmpty
  unset : d.options.unset = e.options.unset
  sensitive : d.options.sensitive = true → e.options.sensitive = true

/-- The same outcome, in which the second one has all secrets of the first one. -/
structure Outcome.CoveredBy (o p : Outcome) : Prop where
  history : List.Forall₂ Command.CoveredBy o.history p.history
  environment : o.environment = p.environment
  declared : o.declared = p.declared
  sensitiveKeys : ∀ key ∈ o.sensitiveKeys, key ∈ p.sensitiveKeys

theorem Expansion.Binding.compatible_coveredBy : Binding.Compatible Binding.CoveredBy where
  refl := fun _ => ⟨rfl, id⟩
  append := by
    intro a b c d h h'
    refine ⟨by rw [Binding.value_append, Binding.value_append, h.value, h'.value], ?_⟩
    simp only [Binding.sensitive_append, Bool.or_eq_true]
    exact Or.imp h.sensitive h'.sensitive

namespace Command.CoveredBy

variable {c c' : Command}

theorem target?_eq (h : c.CoveredBy c') : c.target? = c'.target? := by
  cases h <;> rfl

theorem rel_binding? (h : c.CoveredBy c') :
    Option.Rel Binding.CoveredBy c.binding? c'.binding? := by
  cases h with
  | set key value h => exact .some ⟨rfl, h⟩
  | unset key => exact .none
  | skip key => exact .none

end Command.CoveredBy

/-! ## One declaration -/

namespace Declaration

variable {d e : Declaration} {f g : String → Option Binding}

theorem CoveredBy.refl (d : Declaration) : d.CoveredBy d := ⟨rfl, rfl, rfl, rfl, rfl, id⟩

theorem CoveredBy.isSkipped_eq (h : d.CoveredBy e) : d.isSkipped = e.isSkipped := by
  rw [isSkipped, isSkipped, h.skipIfEmpty, h.value]

/-- The mark of a declaration comes on top of what its references bring along. -/
theorem resolve_coveredBy (h : d.CoveredBy e) (hfg : LookupsRelated Binding.CoveredBy f g) :
    (d.resolve f).CoveredBy (e.resolve g) := by
  rw [resolve_eq_append, resolve_eq_append, ← h.expand, ← h.value]
  refine Binding.compatible_coveredBy.append ⟨rfl, h.sensitive⟩ ?_
  split
  · exact Expansion.expand_related Binding.compatible_coveredBy hfg _
  · exact Binding.compatible_coveredBy.refl _

theorem command_coveredBy (h : d.CoveredBy e) (hfg : LookupsRelated Binding.CoveredBy f g) :
    (d.command f).CoveredBy (e.command g) := by
  unfold command
  rw [← h.unset, ← h.isSkipped_eq, ← h.key]
  split
  · exact .unset _
  · split
    · exact .skip _
    · have hresolve := resolve_coveredBy h hfg
      dsimp only
      rw [hresolve.value]
      exact .set _ _ hresolve.sensitive

end Declaration

/-! ## A run -/

/-- **A run is covered by one with more marks, over a table with more secrets.** -/
theorem run_coveredBy {a b : Table} {ds es : List Declaration}
    (h : List.Forall₂ Declaration.CoveredBy ds es) (hab : a.Related Binding.CoveredBy b) :
    (run a ds).1.Related Binding.CoveredBy (run b es).1 ∧
      List.Forall₂ Command.CoveredBy (run a ds).2 (run b es).2 := by
  refine run_related (fun c c' hc => ⟨hc.target?_eq, hc.rel_binding?⟩) ?_ hab
  exact h.imp fun _ _ hde _ _ hfg => Declaration.command_coveredBy hde hfg

namespace Table.Related

variable {a b : Table}

theorem values_eq (h : a.Related Binding.CoveredBy b) : a.values = b.values := by
  ext key : 1
  rw [getElem?_values, getElem?_values]
  rcases h.getElem?_cases key with ⟨ha, hb⟩ | ⟨x, y, ha, hb, hxy⟩
  · rw [ha, hb]
  · rw [ha, hb]
    exact congrArg some hxy.value

theorem secret (h : a.Related Binding.CoveredBy b) {key value : String}
    (ha : a[key]? = some ⟨value, true⟩) : b[key]? = some ⟨value, true⟩ := by
  rcases h.getElem?_cases key with ⟨hnone, -⟩ | ⟨x, ⟨v, s⟩, hx, hb, hxy⟩
  · rw [hnone] at ha
    cases ha
  · obtain rfl := Option.some.inj (hx.symm.trans ha)
    obtain rfl : value = v := hxy.value
    obtain rfl : s = true := hxy.sensitive rfl
    exact hb

end Table.Related

/-! ## The outcome -/

/-- **What is marked changes no value, and no secret is lost by more marks.** -/
theorem outcome_coveredBy {ds es : List Declaration}
    (h : List.Forall₂ Declaration.CoveredBy ds es) (ambient : Environment) :
    (outcome ds ambient).CoveredBy (outcome es ambient) := by
  obtain ⟨htable, hhistory⟩ :=
    run_coveredBy h (.refl Binding.compatible_coveredBy (.ofEnvironment ambient))
  have henvironment : (outcome ds ambient).environment = (outcome es ambient).environment :=
    htable.values_eq
  refine ⟨hhistory, henvironment, ?_, ?_⟩
  · ext key : 1
    rw [Outcome.getElem?_declared, Outcome.getElem?_declared, henvironment,
      Declaration.map_key_eq_of_forall₂ (fun _ _ hde => hde.key) h]
  · intro key hkey
    obtain ⟨value, hvalue⟩ := (Outcome.mem_sensitiveKeys ds ambient key).mp hkey
    exact (Outcome.mem_sensitiveKeys es ambient key).mpr ⟨value, htable.secret hvalue⟩

/--
**Marks are bookkeeping.**

Two lists are the same but for their marks, and the second one marks whatever the first one does.
Over a source that can be read, all values come out the same, in the environment, in its declared
part and in the history. Whatever the first list makes a secret, in a command or in the environment,
is a secret for the second one. A source that cannot be read fails both in the same way.
-/
theorem evaluate_coveredBy {ds es : List Declaration}
    (h : List.Forall₂ Declaration.CoveredBy ds es) (source : Source) :
    (∀ ambient, source.snapshot = .ok ambient →
      ∃ o p, evaluate ds source = .ok o ∧ evaluate es source = .ok p ∧ o.CoveredBy p) ∧
    ∀ cause, source.snapshot = .error cause →
      evaluate ds source = .error (.lookupUnavailable cause) ∧
        evaluate es source = .error (.lookupUnavailable cause) := by
  refine ⟨fun ambient hs => ?_, fun cause hs => ?_⟩
  · exact ⟨_, _, evaluate_eq_ok hs _, evaluate_eq_ok hs _, outcome_coveredBy h ambient⟩
  · constructor <;> rw [evaluate, hs]

/-- A token is marked in the second list only. The address it is put into is then secret, and the
variable of the token is not, since a plain value takes its place. -/
theorem evaluate_coveredBy_token :
    let declarations (marked : Bool) : List Declaration :=
      [{ key := "TOKEN", value := "abc", options := { sensitive := marked } },
        { key := "URL", value := "https://$TOKEN@host" }, { key := "TOKEN", value := "none" },
        .remove "HOME"]
    let source : Source := .table (.ofPairs [("HOME", "/root")])
    List.Forall₂ Declaration.CoveredBy (declarations false) (declarations true) ∧
      ∃ o p, evaluate (declarations false) source = .ok o ∧
        evaluate (declarations true) source = .ok p ∧ o.CoveredBy p ∧
        "URL" ∉ o.sensitiveKeys ∧ "URL" ∈ p.sensitiveKeys ∧ "TOKEN" ∉ p.sensitiveKeys := by
  intro declarations source
  have h : List.Forall₂ Declaration.CoveredBy (declarations false) (declarations true) :=
    .cons ⟨rfl, rfl, rfl, rfl, rfl, fun _ => rfl⟩
      (.cons (.refl _) (.cons (.refl _) (.cons (.refl _) .nil)))
  obtain ⟨o, p, ho, hp, hcovered⟩ := (evaluate_coveredBy h source).1 _ rfl
  obtain rfl := Except.ok.inj ho
  obtain rfl := Except.ok.inj hp
  exact ⟨h, _, _, rfl, rfl, hcovered, by decide +kernel, by decide +kernel, by decide +kernel⟩

end OrderedEnv
