import OrderedEnv.Proofs.Evaluation.Reaching

/-!
# Where secrets come from

A value is secret when its declaration says so, or when a secret value was put into it. The
evaluator finds this out with one flag for each variable. Here it is said without flags: a value is
secret if a chain of references leads from its declaration back to one that is marked secret
(`evaluate_sensitive_iff_chain`).

A chain goes from a declaration to the one that it takes a value from, `Reaching.Uses`, so it only
goes back, and it passes by whatever was overwritten, removed or skipped in between. Both directions
are an induction over the place in the list: a flag is set by the declaration itself or by one flag
of an earlier declaration, and so is a chain put together.
-/

namespace OrderedEnv

open Expansion (Binding Segment parse)

/-! ## Chains -/

/-- The declaration sets its variable. -/
structure Declaration.Sets (d : Declaration) : Prop where
  unset : d.options.unset = false
  isSkipped : d.isSkipped = false

/-- A chain of places in a list, each of which takes up the value of the next, up to one that is
marked secret. -/
structure SecretChain (ds : List Declaration) (chain : List Nat) : Prop where
  /-- Every place refers to the variable of the next one, which was the last to change it. -/
  linked : chain.IsChain (Reaching.Uses ds)
  /-- No place removes its variable or is skipped. -/
  sets : ∀ k ∈ chain, ∃ d, ds[k]? = some d ∧ d.Sets
  /-- The last place is marked secret. -/
  marked : ∃ k d, chain.getLast? = some k ∧ ds[k]? = some d ∧ d.options.sensitive = true

namespace SecretChain

variable {ds : List Declaration} {d : Declaration} {i j : Nat} {rest : List Nat}

/-- A place that is marked secret is a chain by itself. -/
theorem singleton (hd : ds[i]? = some d) (hset : d.Sets) (hs : d.options.sensitive = true) :
    SecretChain ds [i] where
  linked := .singleton i
  sets := by
    intro k hk
    obtain rfl := List.mem_singleton.mp hk
    exact ⟨d, hd, hset⟩
  marked := ⟨i, d, rfl, hd, hs⟩

/-- A chain goes on in front. -/
theorem cons (hd : ds[i]? = some d) (hset : d.Sets) (hij : Reaching.Uses ds i j)
    (h : SecretChain ds (j :: rest)) : SecretChain ds (i :: j :: rest) where
  linked := .cons_cons hij h.linked
  sets := by
    intro k hk
    rcases List.mem_cons.mp hk with rfl | hk
    · exact ⟨d, hd, hset⟩
    · exact h.sets k hk
  marked := by
    rw [List.getLast?_cons_cons]
    exact h.marked

theorem tail (h : SecretChain ds (i :: j :: rest)) : SecretChain ds (j :: rest) where
  linked := (List.isChain_cons_cons.mp h.linked).2
  sets := fun k hk => h.sets k (List.mem_cons_of_mem i hk)
  marked := by
    obtain ⟨k, d, hk, hd⟩ := h.marked
    exact ⟨k, d, by rwa [List.getLast?_cons_cons] at hk, hd⟩

end SecretChain

/-! ## One declaration -/

namespace Declaration

variable {d : Declaration} {f : String → Option Binding}

/-- What a declaration sets. -/
theorem command_of_sets (h : d.Sets) :
    d.command f = .set d.key (d.resolve f).value (d.resolve f).sensitive := by
  simp only [command, h.unset, h.isSkipped, Bool.false_eq_true, if_false]

theorem sets_of_command_eq_set {key value : String} {sensitive : Bool}
    (h : d.command f = .set key value sensitive) : d.Sets := by
  unfold command at h
  cases hu : d.options.unset with
  | true => simp [hu] at h
  | false =>
    cases hs : d.isSkipped with
    | true => simp [hu, hs] at h
    | false => exact ⟨hu, hs⟩

/-- A declaration that sets is found at its variable when looking back. -/
theorem target?_of_sets (h : d.Sets) : d.target? = some d.key := by
  simp only [target?, h.unset, h.isSkipped, Bool.false_eq_true, if_false]

/-- A value is secret if the declaration says so, or if something that it reads is. -/
theorem sensitive_resolve_iff (h : d.Sets) :
    (d.resolve f).sensitive = true ↔
      d.options.sensitive = true ∨ ∃ name, d.Reads name ∧ ∃ value, f name = some ⟨value, true⟩ := by
  show (d.options.sensitive || _) = true ↔ _
  rw [Bool.or_eq_true]
  refine or_congr_right ?_
  cases he : d.options.expand with
  | false =>
    simp only [Bool.false_eq_true, if_false, false_iff]
    rintro ⟨name, hreads, -⟩
    exact absurd (he ▸ hreads.expand) (by decide)
  | true =>
    simp only [if_true, Expansion.expand, Expansion.assemble_eq, List.any_eq_true]
    constructor
    · rintro ⟨segment, hmem, hs⟩
      cases segment with
      | literal text => cases hs
      | reference name =>
        refine ⟨name, ⟨h.unset, h.isSkipped, he, hmem⟩, ?_⟩
        cases hf : f name with
        | none => simp [Segment.resolve, hf] at hs
        | some b =>
          obtain ⟨value, sensitive⟩ := b
          obtain rfl : sensitive = true := by simpa [Segment.resolve, hf] using hs
          exact ⟨value, rfl⟩
    · rintro ⟨name, hreads, value, hf⟩
      exact ⟨.reference name, hreads.mem, by simp [Segment.resolve, hf]⟩

end Declaration

/-! ## Flags and chains -/

namespace Reaching

variable {ds : List Declaration} {ambient : Environment}

/-- The table holds a secret value if the declaration that is found by looking back set one. -/
theorem tableAt_eq_secret_iff {i : Nat} {key value : String} :
    (tableAt ds ambient i)[key]? = some ⟨value, true⟩ ↔
      ∃ j, index? ds key i = some j ∧
        (outcome ds ambient).history[j]? = some (.set key value true) := by
  rw [getElem?_tableAt]
  cases hj : index? ds key i with
  | none =>
    -- nothing that the ambient environment brings is secret
    cases ambient[key]? <;> simp
  | some j =>
    show (outcome ds ambient).history[j]?.bind _ = _ ↔ ∃ k, some j = some k ∧ _
    simp only [Option.some.injEq, exists_eq_left']
    constructor
    · intro h
      obtain ⟨c, hc, hb⟩ := Option.bind_eq_some_iff.mp h
      have htarget : c.target? = some key := by
        have hkey := (index?_eq_some_iff.mp hj).2.1
        rwa [← bind_target?_run (.ofEnvironment ambient), ← show
          (outcome ds ambient).history = (run (.ofEnvironment ambient) ds).2 from rfl, hc] at hkey
      rw [hc, c.eq_set_of_binding? htarget hb]
    · intro h
      rw [h]
      rfl

/-- The commands that set are those of the declarations that do. -/
theorem exists_set_of_sets (ambient : Environment) {i : Nat} {d : Declaration}
    (hd : ds[i]? = some d) (h : d.Sets) :
    ∃ value sensitive,
      (outcome ds ambient).history[i]? = some (.set d.key value sensitive) := by
  rw [getElem?_history, hd, Option.map_some, Declaration.command_of_sets h]
  exact ⟨_, _, rfl⟩

/-- The declaration of a command that sets, with what makes its flag. -/
theorem exists_of_history_eq_set {i : Nat} {key value : String} {sensitive : Bool}
    (h : (outcome ds ambient).history[i]? = some (.set key value sensitive)) :
    ∃ d, ds[i]? = some d ∧ d.Sets ∧
      (sensitive = true ↔ d.options.sensitive = true ∨ ∃ name j value',
        d.Reads name ∧ index? ds name i = some j ∧
          (outcome ds ambient).history[j]? = some (.set name value' true)) := by
  rw [getElem?_history] at h
  obtain ⟨d, hd, hc⟩ := Option.map_eq_some_iff.mp h
  have hset := Declaration.sets_of_command_eq_set hc
  rw [Declaration.command_of_sets hset] at hc
  obtain ⟨-, -, rfl⟩ := Command.set.inj hc
  refine ⟨d, hd, hset, ?_⟩
  rw [Declaration.sensitive_resolve_iff hset]
  refine or_congr_right ⟨?_, ?_⟩
  · rintro ⟨name, hreads, value', hf⟩
    obtain ⟨j, hj, hcommand⟩ := tableAt_eq_secret_iff.mp hf
    exact ⟨name, j, value', hreads, hj, hcommand⟩
  · rintro ⟨name, j, value', hreads, hj, hcommand⟩
    exact ⟨name, hreads, value', tableAt_eq_secret_iff.mpr ⟨j, hj, hcommand⟩⟩

/-- **A command is flagged if a chain leads from it to a declaration that is marked secret.** -/
theorem sensitive_iff_chain (i : Nat) {key value : String} {sensitive : Bool}
    (h : (outcome ds ambient).history[i]? = some (.set key value sensitive)) :
    sensitive = true ↔ ∃ rest, SecretChain ds (i :: rest) := by
  induction i using Nat.strongRecOn generalizing key value sensitive with
  | ind i ih =>
    obtain ⟨d, hd, hset, hflag⟩ := exists_of_history_eq_set h
    rw [hflag]
    constructor
    · rintro (hs | ⟨name, j, value', hreads, hj, hcommand⟩)
      · exact ⟨[], .singleton hd hset hs⟩
      · obtain ⟨rest, hrest⟩ := (ih j (index?_lt hj) hcommand).mp rfl
        exact ⟨j :: rest, .cons hd hset ⟨d, name, hd, hreads, hj⟩ hrest⟩
    · rintro ⟨rest, hchain⟩
      cases rest with
      | nil =>
        obtain ⟨k, e, hk, he, hs⟩ := hchain.marked
        obtain rfl : i = k := Option.some.inj hk
        obtain rfl : d = e := Option.some.inj (hd.symm.trans he)
        exact .inl hs
      | cons j rest =>
        obtain ⟨e, name, he, hreads, hj⟩ := (List.isChain_cons_cons.mp hchain.linked).1
        obtain rfl : d = e := Option.some.inj (hd.symm.trans he)
        -- the next place sets the variable that is read, and it is flagged
        obtain ⟨f, hf, hfset⟩ := hchain.sets j (by simp)
        have hname : f.key = name := by
          have hkey := (index?_eq_some_iff.mp hj).2.1
          rw [hf, Option.bind_some, Declaration.target?_of_sets hfset] at hkey
          exact Option.some.inj hkey
        obtain ⟨value', sensitive', hcommand⟩ := exists_set_of_sets ambient hf hfset
        obtain rfl := (ih j (index?_lt hj) hcommand).mpr ⟨rest, hchain.tail⟩
        exact .inr ⟨name, j, value', hreads, hj, hname ▸ hcommand⟩

end Reaching

/-! ## The outcome -/

/--
**What is secret is what a chain of references leads from to a declaration that is marked secret.**

This holds of the commands. A variable is secret in the end if the last declaration that changed it
has a command that is.
-/
theorem evaluate_sensitive_iff_chain (ds : List Declaration) {source : Source}
    {ambient : Environment} (h : source.snapshot = .ok ambient) :
    ∃ o, evaluate ds source = .ok o ∧
      (∀ (i : Nat) (key value : String) (sensitive : Bool),
        o.history[i]? = some (.set key value sensitive) →
        (sensitive = true ↔ ∃ rest, SecretChain ds (i :: rest))) ∧
      ∀ key, key ∈ o.sensitiveKeys ↔ ∃ (i : Nat) (value : String),
        Reaching.index? ds key ds.length = some i ∧
          o.history[i]? = some (.set key value true) := by
  refine ⟨_, evaluate_eq_ok h _, fun i _ _ _ hi => Reaching.sensitive_iff_chain i hi, ?_⟩
  intro key
  rw [Outcome.mem_sensitiveKeys, ← Reaching.tableAt_length]
  simp only [Reaching.tableAt_eq_secret_iff]
  exact exists_comm

/-- A token goes by way of an address into a command. The address is replaced afterwards, and so is
the token, but the command keeps the secret. -/
theorem evaluate_sensitive_iff_chain_token :
    let ds : List Declaration :=
      [{ key := "TOKEN", value := "abc", options := { sensitive := true } },
        { key := "URL", value := "https://$TOKEN@host" }, { key := "TOKEN", value := "none" },
        { key := "FETCH", value := "curl ${URL}" }, { key := "URL", value := "$TOKEN" }]
    Source.snapshot .empty = .ok ∅ ∧
      ∃ o, evaluate ds .empty = .ok o ∧
        o.history[3]? = some (.set "FETCH" "curl https://abc@host" true) ∧
        (∃ rest, SecretChain ds (3 :: rest)) ∧
        "FETCH" ∈ o.sensitiveKeys ∧ "URL" ∉ o.sensitiveKeys := by
  intro ds
  have hsource : Source.snapshot .empty = .ok ∅ := rfl
  obtain ⟨o, ho, hflag, hkeys⟩ := evaluate_sensitive_iff_chain ds hsource
  obtain rfl : outcome ds ∅ = o := Except.ok.inj ho
  have hfetch : (outcome ds ∅).history[3]? = some (.set "FETCH" "curl https://abc@host" true) := by
    decide +kernel
  refine ⟨hsource, _, ho, hfetch, (hflag 3 _ _ _ hfetch).mp rfl, ?_, ?_⟩
  · exact (hkeys "FETCH").mpr ⟨3, _, by decide +kernel, hfetch⟩
  · intro hurl
    obtain ⟨i, value, hi, hcommand⟩ := (hkeys "URL").mp hurl
    have hlast : Reaching.index? ds "URL" ds.length = some 4 := by decide +kernel
    have hplain : (outcome ds ∅).history[4]? = some (.set "URL" "none" false) := by decide +kernel
    obtain rfl : 4 = i := Option.some.inj (hlast.symm.trans hi)
    rw [hplain] at hcommand
    simp at hcommand

end OrderedEnv
