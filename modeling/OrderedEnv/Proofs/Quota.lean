import Mathlib.Algebra.BigOperators.Group.List.Basic
import Mathlib.Algebra.GroupWithZero.Nat
import OrderedEnv.Proofs.Store.Adding
import OrderedEnv.Quota

/-!
# What the limit for the list is worth

A value is checked before it is added, as if it came behind the list (`Quota.check`). Where it does,
the list stays within the limit. But a declaration may also be put in the place of others, of all
those of its variable, and then its value is there as many times as they were.

* `Quota.totalSize_replaceAll` — the size of a list with declarations replaced
* `Store.add_withinLimit` — when the list stays within the limit
* `Store.replace_exceedsLimit` — a list that does not

Sizes are compared as numbers without bound. Those of 64 bits are the same as long as they fit.
-/

namespace OrderedEnv

/-! ## Sizes -/

namespace Quota

/-- The bytes of all values of a list, however many they are. -/
def totalSize (declarations : List Declaration) : Nat :=
  (declarations.map fun d => d.value.utf8ByteSize).sum

theorem totalSize_cons (d : Declaration) (declarations : List Declaration) :
    totalSize (d :: declarations) = d.value.utf8ByteSize + totalSize declarations := by
  simp [totalSize]

theorem listSize_eq (declarations : List Declaration) :
    listSize declarations = UInt64.ofNat (totalSize declarations) := by
  induction declarations with
  | nil => rfl
  | cons d rest ih =>
    have hcons : listSize (d :: rest) = byteSize d.value + listSize rest := rfl
    rw [hcons, ih, totalSize_cons, byteSize, UInt64.ofNat_add]

theorem listSize_append_singleton (declarations : List Declaration) (d : Declaration) :
    listSize (declarations ++ [d]) = listSize declarations + byteSize d.value := by
  simp only [listSize_eq, byteSize, ← UInt64.ofNat_add, totalSize, List.map_append,
    List.sum_append, List.map_cons, List.map_nil, List.sum_singleton]

theorem listSize_le_of_totalSize_le {declarations : List Declaration} {limit : UInt64}
    (h : totalSize declarations ≤ limit.toNat) : listSize declarations ≤ limit := by
  have hfits : totalSize declarations < UInt64.size := Nat.lt_of_le_of_lt h limit.toNat_lt
  rw [listSize_eq, UInt64.le_iff_toNat_le, UInt64.toNat_ofNat_of_lt' hfits]
  exact h

/-- Every declaration of the variable gives way to a copy of the new one. -/
theorem totalSize_replaceAll (d : Declaration) (declarations : List Declaration) :
    totalSize (Store.replaceAll d declarations) +
        totalSize (declarations.filter fun e => e.key = d.key) =
      totalSize declarations + Store.countIn declarations d.key * d.value.utf8ByteSize := by
  induction declarations with
  | nil => simp [totalSize, Store.replaceAll, Store.countIn]
  | cons e rest ih =>
    by_cases hkey : e.key = d.key
    · have hreplace : Store.replaceAll d (e :: rest) = d :: Store.replaceAll d rest := by
        simp [Store.replaceAll, hkey]
      have hfilter : (e :: rest).filter (fun e => e.key = d.key) =
          e :: rest.filter fun e => e.key = d.key := by
        simp [hkey]
      have hcount : Store.countIn (e :: rest) d.key = Store.countIn rest d.key + 1 := by
        simp [Store.countIn, hkey]
      rw [hreplace, hfilter, hcount, totalSize_cons, totalSize_cons, totalSize_cons, Nat.succ_mul]
      omega
    · have hreplace : Store.replaceAll d (e :: rest) = e :: Store.replaceAll d rest := by
        simp [Store.replaceAll, hkey]
      have hfilter : (e :: rest).filter (fun e => e.key = d.key) =
          rest.filter fun e => e.key = d.key := by
        simp [hkey]
      have hcount : Store.countIn (e :: rest) d.key = Store.countIn rest d.key := by
        simp [Store.countIn, hkey]
      rw [hreplace, hfilter, hcount, totalSize_cons, totalSize_cons]
      omega

/-! ## The check -/

theorem within_some_eq_ok {size limit : UInt64} {tooLarge : UInt64 → QuotaError}
    (h : within size (some limit) tooLarge = .ok ()) : size ≤ limit := by
  change (if limit < size then _ else _) = _ at h
  split at h
  · cases h
  · next hle => exact UInt64.not_lt.mp hle

/-- A value that passes would be within the limit behind the list. -/
theorem le_of_check {declarations : List Declaration} {value : String} {limits : Limits}
    {limit : UInt64} (hlimit : limits.listBytes = some limit)
    (h : check declarations value limits = .ok ()) :
    listSize declarations + byteSize value ≤ limit := by
  have hlist : checkList declarations value limits = .ok () := by
    unfold check at h
    cases hvalue : checkValue value limits with
    | error cause => rw [hvalue] at h; cases h
    | ok _ => rw [hvalue] at h; exact h
  simp only [checkList, hlimit] at hlist
  exact within_some_eq_ok hlist

/-- The check is on numbers of 64 bits, which are the sizes themselves if they fit. -/
theorem totalSize_add_le_of_check {declarations : List Declaration} {value : String}
    {limits : Limits} {limit : UInt64} (hlimit : limits.listBytes = some limit)
    (h : check declarations value limits = .ok ())
    (hfits : totalSize declarations + value.utf8ByteSize < UInt64.size) :
    totalSize declarations + value.utf8ByteSize ≤ limit.toNat := by
  have hle := le_of_check hlimit h
  rw [listSize_eq, byteSize, ← UInt64.ofNat_add, UInt64.le_iff_toNat_le,
    UInt64.toNat_ofNat_of_lt' hfits] at hle
  exact hle

end Quota

/-! ## Adding -/

namespace Store

open Quota (totalSize)

/-- What adding does: the declaration comes behind the list, or in place of all of its variable. -/
theorem add_cases {store store' : Store} {d : Declaration} {policy : Policy} {done : Added}
    (h : store.add d policy = .ok (done, store')) :
    ((∀ count, done ≠ .replaced count) ∧
        store' = ⟨store.path, store.declarations ++ [d]⟩) ∨
      (done = .replaced (store.count d.key) ∧
        store' = ⟨store.path, replaceAll d store.declarations⟩) := by
  obtain ⟨hpath, hadds⟩ := add_eq_ok_iff.mp h
  obtain ⟨path, declarations⟩ := store'
  obtain rfl : path = store.path := hpath
  change Adds store.declarations d policy done declarations at hadds
  cases hadds with
  | added _ _ | appended _ => exact .inl ⟨nofun, rfl⟩
  | replaced _ => exact .inr ⟨rfl, rfl⟩

/--
**A list stays within its limit unless a value that passed the check takes the place of several.**

A declaration that comes behind the list leaves it within the limit. One that replaces others
changes its size by a copy of the value for each of them, and leaves it within the limit if the
copies but one are no larger than what they replace, so always if there is only one to replace.
Sizes that fit in 64 bits are those of values that fit in a memory.
-/
theorem add_withinLimit {store store' : Store} {d : Declaration} {policy : Policy} {done : Added}
    {limits : Limits} {limit : UInt64} (hlimit : limits.listBytes = some limit)
    (hcheck : Quota.check store.declarations d.value limits = .ok ())
    (hadd : store.add d policy = .ok (done, store')) :
    ((∀ count, done ≠ .replaced count) → Quota.listSize store'.declarations ≤ limit) ∧
      ∀ count, done = .replaced count →
        totalSize store.declarations + d.value.utf8ByteSize < UInt64.size →
        let replaced := totalSize (store.declarations.filter fun e => e.key = d.key)
        totalSize store'.declarations + replaced =
            totalSize store.declarations + count * d.value.utf8ByteSize ∧
          ((count - 1) * d.value.utf8ByteSize ≤ replaced →
            Quota.listSize store'.declarations ≤ limit) := by
  rcases add_cases hadd with ⟨hne, rfl⟩ | ⟨rfl, rfl⟩
  · refine ⟨fun _ => ?_, fun count hdone => absurd hdone (hne count)⟩
    rw [Quota.listSize_append_singleton]
    exact Quota.le_of_check hlimit hcheck
  · refine ⟨fun hne => absurd rfl (hne _), ?_⟩
    intro count hdone hfits replaced
    obtain rfl : store.count d.key = count := Added.replaced.inj hdone
    have htotal : totalSize (replaceAll d store.declarations) + replaced =
        totalSize store.declarations + store.count d.key * d.value.utf8ByteSize :=
      Quota.totalSize_replaceAll d store.declarations
    refine ⟨htotal, fun hcopies => Quota.listSize_le_of_totalSize_le ?_⟩
    have hbound := Quota.totalSize_add_le_of_check hlimit hcheck hfits
    -- one copy was part of the check, and the others are paid for by what they replace
    have hcount : store.count d.key * d.value.utf8ByteSize ≤
        (store.count d.key - 1) * d.value.utf8ByteSize + d.value.utf8ByteSize := by
      rw [← Nat.succ_mul]
      exact Nat.mul_le_mul_right _ (by omega)
    show totalSize (replaceAll d store.declarations) ≤ limit.toNat
    omega

/-- Two values of three bytes in all give way to two of one byte. -/
theorem add_withinLimit_replaced_two :
    let store : Store := ⟨.ofText "store.yml",
      [{ key := "A", value := "abc" }, { key := "B", value := "x" }, { key := "A", value := "" }]⟩
    let d : Declaration := { key := "A", value := "y" }
    let limits : Limits := ⟨0, 1⟩
    limits.listBytes = some 1024 ∧ Quota.check store.declarations d.value limits = .ok () ∧
      store.add d .replace = .ok (.replaced 2, ⟨store.path, replaceAll d store.declarations⟩) ∧
      Quota.listSize (replaceAll d store.declarations) ≤ 1024 := by
  intro store d limits
  have hlimit : limits.listBytes = some 1024 := by decide +kernel
  have hcheck : Quota.check store.declarations d.value limits = .ok () := by decide +kernel
  have hadd : store.add d .replace =
      .ok (.replaced 2, ⟨store.path, replaceAll d store.declarations⟩) := rfl
  obtain ⟨-, hreplaced⟩ := add_withinLimit hlimit hcheck hadd
  obtain ⟨-, hwithin⟩ := hreplaced 2 rfl (by decide +kernel)
  exact ⟨hlimit, hcheck, hadd, hwithin (by decide +kernel)⟩

/-- Two empty values give way to two of 600 bytes. Each of them passes the check for a limit of 1024
bytes, and together they are above it. -/
theorem replace_exceedsLimit :
    let store : Store := ⟨.ofText "store.yml",
      [{ key := "A", value := "" }, { key := "A", value := "" }]⟩
    let d : Declaration := { key := "A", value := String.ofList (List.replicate 600 'x') }
    let limits : Limits := ⟨20, 1⟩
    limits.listBytes = some 1024 ∧ Quota.check store.declarations d.value limits = .ok () ∧
      ∃ store', store.add d .replace = .ok (.replaced 2, store') ∧
        Quota.listSize store'.declarations = 1200 ∧
        ¬Quota.listSize store'.declarations ≤ 1024 := by
  intro store d limits
  exact ⟨by decide +kernel, by decide +kernel, _, rfl, by decide +kernel, by decide +kernel⟩

end Store

end OrderedEnv
