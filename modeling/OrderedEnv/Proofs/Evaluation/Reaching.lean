import Mathlib.Data.List.Basic
import Mathlib.Logic.Relation
import OrderedEnv.Proofs.Evaluation.Outcome
import OrderedEnv.Proofs.Expansion.Contribution

/-!
# Evaluation by looking back

Evaluation carries a table from declaration to declaration. The same values can be had without a
table, by looking back from a declaration over those before it: the last one that changes a variable
(`Reaching.index?`) says what is seen of the variable, and only where there is none the ambient
environment does.

* `Reaching.value?` — the value that a declaration leaves for its variable, by looking back
* `evaluate_looksBack` — evaluation leaves just that

## The invariant

The table in front of the `i`-th declaration is the ambient environment with the first `i` commands
replayed into it. What it holds for a variable is settled by the last of these commands that changes
the variable, and that is the command of the declaration that `Reaching.index?` finds
(`last?_take_run`).
-/

namespace OrderedEnv

open Expansion (Binding Segment expand parse)

/-! ## What a declaration changes and reads -/

namespace Declaration

/-- The variable that a declaration changes. One that is skipped changes none. -/
def target? (d : Declaration) : Option String :=
  if d.options.unset then some d.key else if d.isSkipped then none else some d.key

/-- The declaration sets its variable to a value that holds a reference to the name. -/
structure Reads (d : Declaration) (name : String) : Prop where
  unset : d.options.unset = false
  isSkipped : d.isSkipped = false
  expand : d.options.expand = true
  mem : .reference name ∈ parse d.value

@[simp] theorem target?_command (d : Declaration) (lookup : String → Option Binding) :
    (d.command lookup).target? = d.target? := by
  unfold command target?
  split
  · rfl
  · split <;> rfl

/-- A command depends on the look-up at the names that are read, and on nothing else of it. -/
theorem command_congr {d : Declaration} {f g : String → Option Binding}
    (h : ∀ name, d.Reads name → f name = g name) : d.command f = d.command g := by
  unfold command
  cases hu : d.options.unset with
  | true => rfl
  | false =>
    cases hs : d.isSkipped with
    | true => rfl
    | false =>
      have hresolve : d.resolve f = d.resolve g := by
        cases he : d.options.expand with
        | false => simp only [resolve, he, Bool.false_eq_true, if_false]
        | true =>
          have hexpand : expand f d.value = expand g d.value := by
            refine List.foldl_ext _ _ _ fun done segment hmem => ?_
            cases segment with
            | literal text => rfl
            | reference name => rw [Segment.resolve, Segment.resolve, h name ⟨hu, hs, he, hmem⟩]
          simp only [resolve, he, if_true, hexpand]
      rw [hresolve]

end Declaration

/-! ## Looking back -/

namespace Reaching

/-- The last declaration before the `i`-th that changes a variable. -/
def index? (ds : List Declaration) (key : String) : Nat → Option Nat
  | 0 => none
  | i + 1 => if ds[i]?.bind Declaration.target? = some key then some i else index? ds key i

/-- The declaration that is found is the last one before the `i`-th that changes the variable. -/
theorem index?_eq_some_iff {ds : List Declaration} {key : String} {i j : Nat} :
    index? ds key i = some j ↔
      j < i ∧ ds[j]?.bind Declaration.target? = some key ∧
        ∀ k, j < k → k < i → ds[k]?.bind Declaration.target? ≠ some key := by
  induction i with
  | zero => simp [index?]
  | succ i ih =>
    rw [index?]
    by_cases h : ds[i]?.bind Declaration.target? = some key
    · rw [if_pos h]
      constructor
      · intro hij
        obtain rfl : i = j := Option.some.inj hij
        exact ⟨Nat.lt_succ_self i, h, fun k hik hki => by omega⟩
      · rintro ⟨hj, -, hlast⟩
        -- the `i`-th itself changes the variable, so no earlier one is the last
        have hji : ¬j < i := fun hlt => hlast i hlt (Nat.lt_succ_self i) h
        exact congrArg some (by omega)
    · rw [if_neg h, ih]
      constructor
      · rintro ⟨hj, hkey, hlast⟩
        refine ⟨by omega, hkey, fun k hjk hki => ?_⟩
        rcases Nat.lt_succ_iff_lt_or_eq.mp hki with hlt | rfl
        · exact hlast k hjk hlt
        · exact h
      · rintro ⟨hj, hkey, hlast⟩
        have hne : j ≠ i := fun heq => h (heq ▸ hkey)
        exact ⟨by omega, hkey, fun k hjk hki => hlast k hjk (by omega)⟩

theorem index?_lt {ds : List Declaration} {key : String} {i j : Nat}
    (h : index? ds key i = some j) : j < i :=
  (index?_eq_some_iff.mp h).1

/-- The declarations from the `i`-th on play no part. -/
theorem index?_congr {ds es : List Declaration} {i : Nat} (h : ∀ k < i, ds[k]? = es[k]?)
    (key : String) : index? ds key i = index? es key i := by
  induction i with
  | zero => rfl
  | succ i ih =>
    rw [index?, index?, h i (Nat.lt_succ_self i), ih fun k hk => h k (Nat.lt_succ_of_lt hk)]

/-- The value that the `i`-th declaration leaves for its variable, none if it removes the variable.
Every variable that it refers to is looked for backwards. -/
def value? (ds : List Declaration) (ambient : Environment) (i : Nat) : Option String :=
  match ds[i]? with
  | none => none
  | some d =>
    if d.options.unset then none
    else if d.options.expand then
      some (String.join ((parse d.value).map fun
        | .literal text => text
        | .reference name =>
          match _h : index? ds name i with
          | some j => (value? ds ambient j).getD ""
          | none => ambient[name]?.getD ""))
    else some d.value
termination_by i
decreasing_by exact index?_lt ‹_›

/-- What is seen of a variable in front of the `i`-th declaration. -/
def seen? (ds : List Declaration) (ambient : Environment) (i : Nat) (key : String) :
    Option String :=
  match index? ds key i with
  | some j => value? ds ambient j
  | none => ambient[key]?

/-- What a segment adds to the value of the `i`-th declaration. -/
def contribution (ds : List Declaration) (ambient : Environment) (i : Nat) : Segment → String
  | .literal text => text
  | .reference name => (seen? ds ambient i name).getD ""

theorem value?_eq {ds : List Declaration} {i : Nat} {d : Declaration} (h : ds[i]? = some d)
    (ambient : Environment) :
    value? ds ambient i =
      if d.options.unset then none
      else if d.options.expand then
        some (String.join ((parse d.value).map (contribution ds ambient i)))
      else some d.value := by
  rw [value?, h]
  dsimp only
  split
  · rfl
  · split
    · refine congrArg some (congrArg String.join (List.map_congr_left fun segment _ => ?_))
      cases segment with
      | literal text => rfl
      | reference name =>
        simp only [contribution, seen?]
        split <;> next hindex => rw [hindex]
    · rfl

/-! ## The run -/

/-- Each command is made from the table that the commands before it left. -/
theorem getElem?_run (table : Table) (ds : List Declaration) (i : Nat) :
    (run table ds).2[i]? = ds[i]?.map fun d => d.command fun name =>
      (table.replay ((run table ds).2.take i))[name]? := by
  induction ds generalizing table i with
  | nil => simp [run]
  | cons d rest ih =>
    cases i with
    | zero => rfl
    | succ i => exact ih _ i

theorem map_target?_run (table : Table) (ds : List Declaration) :
    (run table ds).2.map Command.target? = ds.map Declaration.target? := by
  induction ds generalizing table with
  | nil => rfl
  | cons d rest ih =>
    show (d.command _).target? :: (run _ rest).2.map Command.target? = _
    rw [Declaration.target?_command, ih, List.map_cons]

theorem bind_target?_run (table : Table) (ds : List Declaration) (i : Nat) :
    (run table ds).2[i]?.bind Command.target? = ds[i]?.bind Declaration.target? := by
  rw [getElem?_run]
  cases ds[i]? with
  | none => rfl
  | some d => exact Declaration.target?_command _ _

/-- **The last word on a variable, among the commands before the `i`-th, has the declaration that is
found by looking back.** -/
theorem last?_take_run (table : Table) (ds : List Declaration) (key : String) (i : Nat) :
    History.last? ((run table ds).2.take i) key =
      (index? ds key i).bind fun j => (run table ds).2[j]? := by
  induction i with
  | zero => rfl
  | succ i ih =>
    rw [List.take_add_one, index?, ← bind_target?_run table]
    cases hc : (run table ds).2[i]? with
    | none => simpa using ih
    | some c =>
      show History.last? (_ ++ [c]) key = Option.bind (if c.target? = some key then _ else _) _
      by_cases ht : c.target? = some key
      · rw [if_pos ht, History.last?_concat_of_target ht]
        exact hc.symm
      · rw [if_neg ht, History.last?_concat_of_ne ht, ih]

/-- What the table holds in front of the `i`-th declaration. -/
theorem getElem?_replay_take (table : Table) (ds : List Declaration) (key : String) (i : Nat) :
    (table.replay ((run table ds).2.take i))[key]? =
      match index? ds key i with
      | some j => (run table ds).2[j]?.bind Command.binding?
      | none => table[key]? := by
  rw [Table.getElem?_replay, last?_take_run]
  cases hj : index? ds key i with
  | none => rfl
  | some j =>
    -- the declaration that was found is in the list, so it has a command
    have hkey := (index?_eq_some_iff.mp hj).2.1
    rw [← bind_target?_run table] at hkey
    cases hc : (run table ds).2[j]? with
    | none => simp [hc] at hkey
    | some c => simp [hc]

/-! ## The values -/

variable {ds : List Declaration} {ambient : Environment}

/-- The table in front of the `i`-th declaration. -/
def tableAt (ds : List Declaration) (ambient : Environment) (i : Nat) : Table :=
  (Table.ofEnvironment ambient).replay ((outcome ds ambient).history.take i)

theorem getElem?_history (ds : List Declaration) (ambient : Environment) (i : Nat) :
    (outcome ds ambient).history[i]? =
      ds[i]?.map fun d => d.command fun name => (tableAt ds ambient i)[name]? :=
  getElem?_run _ ds i

theorem getElem?_tableAt (ds : List Declaration) (ambient : Environment) (i : Nat) (key : String) :
    (tableAt ds ambient i)[key]? =
      match index? ds key i with
      | some j => (outcome ds ambient).history[j]?.bind Command.binding?
      | none => ambient[key]?.map fun value => ⟨value, false⟩ := by
  rw [← Table.getElem?_ofEnvironment]
  exact getElem?_replay_take _ ds key i

/-- The value that is set, when the look-up finds what is seen in front of the declaration. -/
theorem value_resolve {d : Declaration} {f : String → Option Binding} {i : Nat}
    (h : ∀ name, (f name).map Binding.value = seen? ds ambient i name) :
    (d.resolve f).value =
      if d.options.expand then String.join ((parse d.value).map (contribution ds ambient i))
      else d.value := by
  have hsegment (segment : Segment) :
      (segment.resolve f).value = contribution ds ambient i segment := by
    cases segment with
    | literal text => rfl
    | reference name =>
      show ((f name).getD _).value = (seen? ds ambient i name).getD ""
      rw [← h name]
      cases f name <;> rfl
  cases he : d.options.expand with
  | false => simp only [Declaration.resolve, he, Bool.false_eq_true, if_false]
  | true =>
    simp only [Declaration.resolve, he, if_true, Expansion.expand, Expansion.assemble_eq,
      hsegment]

/-- What a command leaves is what is found by looking back, if that holds of what it sees. -/
theorem map_value_binding?_command {d : Declaration} {f : String → Option Binding} {i : Nat}
    (hd : ds[i]? = some d) (ht : d.target? ≠ none)
    (h : ∀ name, (f name).map Binding.value = seen? ds ambient i name) :
    (d.command f).binding?.map Binding.value = value? ds ambient i := by
  rw [value?_eq hd]
  unfold Declaration.target? at ht
  unfold Declaration.command
  cases hu : d.options.unset with
  | true => rfl
  | false =>
    cases hs : d.isSkipped with
    | true => simp [hu, hs] at ht
    | false =>
      show some (d.resolve f).value = if d.options.expand then some _ else some d.value
      rw [value_resolve h]
      split <;> rfl

/-- **The table holds the values that are found by looking back.** -/
theorem map_value_getElem?_tableAt (ds : List Declaration) (ambient : Environment) (i : Nat) :
    ∀ key, (tableAt ds ambient i)[key]?.map Binding.value = seen? ds ambient i key := by
  induction i using Nat.strongRecOn with
  | ind i ih =>
    intro key
    rw [getElem?_tableAt, seen?]
    cases hj : index? ds key i with
    | none => cases ambient[key]? <;> rfl
    | some j =>
      obtain ⟨hji, hkey, -⟩ := index?_eq_some_iff.mp hj
      obtain ⟨d, hd, ht⟩ := Option.bind_eq_some_iff.mp hkey
      show ((outcome ds ambient).history[j]?.bind _).map _ = _
      rw [getElem?_history, hd]
      exact map_value_binding?_command hd (by simp [ht]) (ih j hji)

theorem length_history (ds : List Declaration) (ambient : Environment) :
    (outcome ds ambient).history.length = ds.length := by
  rw [← List.length_map (f := Command.key), ← List.length_map (f := Declaration.key)]
  exact congrArg List.length (map_key_run _ ds)

/-- The table behind the last declaration is the final one. -/
theorem tableAt_length (ds : List Declaration) (ambient : Environment) :
    tableAt ds ambient ds.length = Outcome.finalTable ds ambient := by
  rw [tableAt, Outcome.finalTable_eq_replay, ← length_history ds ambient, List.take_length]

/-! ## What a command depends on -/

/-- The value of the `i`-th declaration takes up what the `j`-th left. -/
def Uses (ds : List Declaration) (i j : Nat) : Prop :=
  ∃ d name, ds[i]? = some d ∧ d.Reads name ∧ index? ds name i = some j

/-- Two lists have the same `i`-th declaration, and the same at every place that is reached from it
by way of references, and they send these references to the same places. -/
def Alike (ds es : List Declaration) (i : Nat) : Prop :=
  ∀ k, Relation.ReflTransGen (Uses ds) i k → ds[k]? = es[k]? ∧
    ∀ d name, ds[k]? = some d → d.Reads name → index? es name k = index? ds name k

theorem Alike.of_uses {es : List Declaration} {i j : Nat} (h : Alike ds es i)
    (hj : Uses ds i j) : Alike ds es j :=
  fun k hk => h k (hk.head hj)

/-- **A command depends on the declarations that references lead to, and on no others.** -/
theorem getElem?_history_eq_of_alike {es : List Declaration} (i : Nat) (h : Alike ds es i) :
    (outcome es ambient).history[i]? = (outcome ds ambient).history[i]? := by
  induction i using Nat.strongRecOn with
  | ind i ih =>
    obtain ⟨hd, hindex⟩ := h i .refl
    rw [getElem?_history, getElem?_history, ← hd]
    cases hi : ds[i]? with
    | none => rfl
    | some d =>
      refine congrArg some (Declaration.command_congr fun name hname => ?_)
      rw [getElem?_tableAt, getElem?_tableAt, hindex d name hi hname]
      cases hj : index? ds name i with
      | none => rfl
      | some j =>
        have hcommand := ih j (index?_lt hj) (h.of_uses ⟨d, name, hi, hname, hj⟩)
        exact congrArg (·.bind Command.binding?) hcommand

/-- Uses go back. -/
theorem le_of_uses {i j : Nat} (h : Relation.ReflTransGen (Uses ds) i j) : j ≤ i := by
  induction h with
  | refl => exact Nat.le_refl i
  | tail _ hjk ih =>
    obtain ⟨_, _, _, _, hindex⟩ := hjk
    exact Nat.le_trans (Nat.le_of_lt (index?_lt hindex)) ih

/-- Lists that agree up to the `i`-th declaration are alike there. -/
theorem alike_of_agree {es : List Declaration} {i : Nat} (h : ∀ k ≤ i, ds[k]? = es[k]?) :
    Alike ds es i := by
  intro k hk
  have hki := le_of_uses hk
  refine ⟨h k hki, fun d name _ _ => ?_⟩
  exact index?_congr (fun l hl => (h l (by omega)).symm) name

end Reaching

/-! ## The outcome -/

open Reaching in
/-- What an outcome is when nothing but looking back is done. -/
structure Outcome.LooksBack (o : Outcome) (ds : List Declaration) (ambient : Environment) :
    Prop where
  /-- There is one command for each declaration. -/
  length : o.history.length = ds.length
  /-- A declaration that removes its variable does so whatever its value is. -/
  unset : ∀ {i : Nat} {d : Declaration}, ds[i]? = some d → d.options.unset = true →
    o.history[i]? = some (.unset d.key)
  /-- Of the others, one without a value is skipped where it asks for that. -/
  skip : ∀ {i : Nat} {d : Declaration}, ds[i]? = some d → d.options.unset = false →
    d.options.skipIfEmpty = true → d.value = "" → o.history[i]? = some (.skip d.key)
  /-- Any other sets its variable, to its value as it is or with every reference replaced by what is
  found by looking back. -/
  set : ∀ {i : Nat} {d : Declaration}, ds[i]? = some d → d.options.unset = false →
    (d.options.skipIfEmpty = true → d.value ≠ "") →
    ∃ sensitive, o.history[i]? = some (.set d.key
      (if d.options.expand then String.join ((parse d.value).map (contribution ds ambient i))
        else d.value) sensitive)
  /-- A variable is left as it is found by looking back over the whole list. -/
  environment : ∀ key, o.environment[key]? = seen? ds ambient ds.length key

theorem Declaration.isSkipped_iff (d : Declaration) :
    d.isSkipped = true ↔ d.options.skipIfEmpty = true ∧ d.value = "" := by
  rw [isSkipped, Bool.and_eq_true, String.isEmpty_iff]

theorem outcome_looksBack (ds : List Declaration) (ambient : Environment) :
    (outcome ds ambient).LooksBack ds ambient where
  length := Reaching.length_history ds ambient
  unset := by
    intro i d hd hu
    rw [Reaching.getElem?_history, hd, Option.map_some, Declaration.command, if_pos hu]
  skip := by
    intro i d hd hu hskip hvalue
    have hs : d.isSkipped = true := d.isSkipped_iff.mpr ⟨hskip, hvalue⟩
    simp only [Reaching.getElem?_history, hd, Option.map_some, Declaration.command, hu, hs,
      Bool.false_eq_true, if_false, if_true]
  set := by
    intro i d hd hu hvalue
    have hs : ¬d.isSkipped = true := fun hs =>
      hvalue (d.isSkipped_iff.mp hs).1 (d.isSkipped_iff.mp hs).2
    rw [Reaching.getElem?_history, hd, ← Reaching.value_resolve (d := d)
      (Reaching.map_value_getElem?_tableAt ds ambient i)]
    simp only [Option.map_some, Declaration.command, hu, hs, Bool.false_eq_true, if_false]
    exact ⟨_, rfl⟩
  environment := by
    intro key
    rw [Outcome.environment_outcome, Table.getElem?_values, ← Reaching.tableAt_length,
      Reaching.map_value_getElem?_tableAt]

/--
**Evaluation leaves what is found by looking back.**

It succeeds over every source that can be read. No table is needed to say what its outcome is, only
the declarations that references lead to. So a command is the same for any other list that is alike
where these are concerned, whatever is declared behind it, and whatever is overwritten, removed or
skipped before it is looked at.
-/
theorem evaluate_looksBack (ds : List Declaration) {source : Source} {ambient : Environment}
    (h : source.snapshot = .ok ambient) :
    ∃ o, evaluate ds source = .ok o ∧ o.LooksBack ds ambient ∧
      ∀ es : List Declaration, ∃ p, evaluate es source = .ok p ∧
        (∀ i, Reaching.Alike ds es i → p.history[i]? = o.history[i]?) ∧
        ∀ i : Nat, (∀ k ≤ i, ds[k]? = es[k]?) → p.history[i]? = o.history[i]? := by
  refine ⟨_, evaluate_eq_ok h _, outcome_looksBack ds ambient, fun es => ?_⟩
  refine ⟨_, evaluate_eq_ok h _, fun i => Reaching.getElem?_history_eq_of_alike i, ?_⟩
  exact fun i hi => Reaching.getElem?_history_eq_of_alike i (Reaching.alike_of_agree hi)

/-- A variable takes up its ambient value, another is removed before it is looked at, and a third is
skipped, so its ambient value is seen. -/
theorem evaluate_looksBack_mixed :
    let ds : List Declaration :=
      [{ key := "A", value := "$A:1" }, .remove "B", { key := "C", value := "${B}$A" },
        { key := "S", value := "", options := { skipIfEmpty := true } },
        { key := "C", value := "$C/$S" }]
    let ambient : Environment := .ofPairs [("A", "0"), ("B", "b"), ("S", "s")]
    (Source.table ambient).snapshot = .ok ambient ∧
      ∃ o, evaluate ds (.table ambient) = .ok o ∧ o.LooksBack ds ambient ∧
        o.environment["C"]? = some "0:1/s" := by
  intro ds ambient
  have hsource : (Source.table ambient).snapshot = .ok ambient := rfl
  obtain ⟨o, ho, hback, -⟩ := evaluate_looksBack ds hsource
  refine ⟨hsource, o, ho, hback, ?_⟩
  rw [hback.environment]
  decide +kernel

end OrderedEnv
