import Mathlib.Data.List.Nodup
import OrderedEnv.Store

/-!
# Adding to a list

There are three ways to add a declaration to a list, and one to refuse it (`Store.Adds`). Which
one it is depends on the policy, and on whether there is a declaration of the same variable already.
All that is said elsewhere of `Store.add` is said by cases of these.

The list of variables is all that counting needs. It grows at its end, or it stays as it is: what is
replaced is replaced by a declaration of the same variable (`Store.map_key_replaceAll`).
-/

namespace OrderedEnv

namespace Store

variable {store store' : Store} {d : Declaration} {ds ds' : List Declaration} {policy : Policy}
  {done : Added} {cause : StoreError} {key : String}

/-! ## Three ways -/

/-- What adding a declaration to a list comes to, if it is not refused. -/
inductive Adds (ds : List Declaration) (d : Declaration) :
    Policy → Added → List Declaration → Prop where
  | added (policy : Policy) (h : countIn ds d.key = 0) : Adds ds d policy .added (ds ++ [d])
  | replaced (h : 0 < countIn ds d.key) :
    Adds ds d .replace (.replaced (countIn ds d.key)) (replaceAll d ds)
  | appended (h : 0 < countIn ds d.key) :
    Adds ds d .append (.appended (countIn ds d.key)) (ds ++ [d])

theorem addTo_eq_ok_iff : addTo ds d policy = .ok (done, ds') ↔ Adds ds d policy done ds' := by
  unfold addTo
  constructor
  · intro h
    split at h
    · next hcount =>
      cases h
      exact .added _ hcount
    · cases h
    · next n hcount =>
      cases h
      rw [show n + 1 = countIn ds d.key from hcount.symm]
      exact .replaced (by omega)
    · next n hcount =>
      cases h
      rw [show n + 1 = countIn ds d.key from hcount.symm]
      exact .appended (by omega)
  · intro h
    cases h with
    | added policy hcount => simp only [hcount]
    | replaced hcount => split <;> simp_all
    | appended hcount => split <;> simp_all

theorem add_eq_ok_iff :
    store.add d policy = .ok (done, store') ↔
      store'.path = store.path ∧
        Adds store.declarations d policy done store'.declarations := by
  rw [← addTo_eq_ok_iff, add]
  obtain ⟨path, declarations⟩ := store'
  cases addTo store.declarations d policy with
  | error cause => simp [Except.map]
  | ok added =>
    obtain ⟨done', declarations'⟩ := added
    simp only [Except.map, Except.ok.injEq, Prod.mk.injEq, Store.mk.injEq]
    grind

/-- Only a variable that is there is refused, and only if it is to be. -/
theorem add_eq_error_iff :
    store.add d policy = .error cause ↔
      policy = .fail ∧ 0 < store.count d.key ∧ cause = .keyExists d.key := by
  unfold add addTo Store.count
  cases hcount : countIn store.declarations d.key with
  | zero => simp [Except.map]
  | succ n => cases policy <;> simp [Except.map, eq_comm]

/-! ## Variables of a list -/

theorem countIn_eq_count (ds : List Declaration) (key : String) :
    countIn ds key = (ds.map Declaration.key).count key := by
  rw [countIn, List.count, List.countP_map]
  rfl

theorem countIn_eq_zero_iff : countIn ds key = 0 ↔ ∀ e ∈ ds, e.key ≠ key := by
  simp [countIn, List.countP_eq_zero]

theorem countIn_append_singleton (ds : List Declaration) (d : Declaration) (key : String) :
    countIn (ds ++ [d]) key = countIn ds key + if d.key = key then 1 else 0 := by
  simp [countIn, List.countP_append, List.countP_singleton]

/-- Every variable is there once if none is counted more than once. -/
theorem nodup_map_key_iff : (ds.map Declaration.key).Nodup ↔ ∀ key, countIn ds key ≤ 1 := by
  simp only [List.nodup_iff_count_le_one, countIn_eq_count]

/-! ## Replacing -/

/-- A declaration is replaced by one of the same variable. -/
theorem map_key_replaceAll (d : Declaration) (ds : List Declaration) :
    (replaceAll d ds).map Declaration.key = ds.map Declaration.key := by
  rw [replaceAll, List.map_map]
  refine List.map_congr_left fun old _ => ?_
  show Declaration.key (if old.key = d.key then d else old) = old.key
  split
  · next hkey => exact hkey.symm
  · rfl

theorem countIn_replaceAll (d : Declaration) (ds : List Declaration) (key : String) :
    countIn (replaceAll d ds) key = countIn ds key := by
  rw [countIn_eq_count, map_key_replaceAll, ← countIn_eq_count]

theorem getElem?_replaceAll {i : Nat} {old : Declaration} (h : ds[i]? = some old) :
    (replaceAll d ds)[i]? = some (if old.key = d.key then d else old) := by
  rw [replaceAll, List.getElem?_map, h]
  rfl

theorem replaceAll_of_forall_ne (h : ∀ e ∈ ds, e.key ≠ d.key) : replaceAll d ds = ds :=
  (List.map_congr_left fun e he => if_neg (h e he)).trans (List.map_id ds)

/-- What is replaced once is replaced. -/
theorem replaceAll_replaceAll (d : Declaration) (ds : List Declaration) :
    replaceAll d (replaceAll d ds) = replaceAll d ds := by
  rw [replaceAll, replaceAll, List.map_map]
  refine List.map_congr_left fun old _ => ?_
  show (if (if old.key = d.key then d else old).key = d.key then d else
    if old.key = d.key then d else old) = if old.key = d.key then d else old
  split <;> simp_all

/-- The only declaration of a variable is replaced by itself. -/
theorem replaceAll_append_singleton (h : countIn ds d.key = 0) :
    replaceAll d (ds ++ [d]) = ds ++ [d] := by
  have hds : replaceAll d ds = ds := replaceAll_of_forall_ne (countIn_eq_zero_iff.mp h)
  rw [replaceAll, List.map_append, List.map_singleton, if_pos rfl]
  exact congrArg (· ++ [d]) hds

end Store

end OrderedEnv
