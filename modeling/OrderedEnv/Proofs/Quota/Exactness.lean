import OrderedEnv.Proofs.Quota

/-!
# Checks of numbers of 64 bits are exact

Sizes and limits are numbers of 64 bits. A limit that does not fit in bytes becomes the greatest of
them, and the sizes of values are added up. Neither of the two shows in what a check says, as long
as the size of all values together fits in 64 bits: it is what would be said about numbers without
bound (`Quota.check_exact`).

A limit that was cut off is not below any size of 64 bits, so it lets everything pass, as the true
limit does (`Limits.saturatingBytes_lt_iff`). A sum that fits was added up from parts that fit, so
none of the additions went over the end (`Quota.checkedSize?_eq`).
-/

namespace OrderedEnv

/-! ## Limits -/

namespace Limits

theorem toNat_saturatingBytes (kb : UInt64) :
    (saturatingBytes kb).toNat = min (kb.toNat * 1024) (UInt64.size - 1) := by
  have hfits : min (kb.toNat * 1024) (UInt64.size - 1) < UInt64.size :=
    Nat.lt_of_le_of_lt (Nat.min_le_right _ _) (by decide)
  rw [saturatingBytes, UInt64.toNat_ofNat_of_lt' hfits]

/-- **A size is above a limit just if it is above the limit without bound.** -/
theorem saturatingBytes_lt_iff {kb size : UInt64} :
    saturatingBytes kb < size ↔ kb.toNat * 1024 < size.toNat := by
  have hsize : size.toNat ≤ UInt64.size - 1 := Nat.le_sub_one_of_lt size.toNat_lt
  rw [UInt64.lt_iff_toNat_lt, toNat_saturatingBytes]
  omega

/-- A limit that some size is above was not cut off. -/
theorem toNat_saturatingBytes_of_lt {kb size : UInt64} (h : saturatingBytes kb < size) :
    (saturatingBytes kb).toNat = kb.toNat * 1024 := by
  have hlt := saturatingBytes_lt_iff.mp h
  have hsize : size.toNat ≤ UInt64.size - 1 := Nat.le_sub_one_of_lt size.toNat_lt
  rw [toNat_saturatingBytes]
  omega

end Limits

namespace Quota

open Limits (saturatingBytes saturatingBytes_lt_iff toNat_saturatingBytes_of_lt)

/-! ## One check -/

/-- There is a limit, and the size is above it. -/
def Exceeds (size kb : Nat) : Prop := 0 < kb ∧ kb * 1024 < size

/-- What a check says about a size and a limit in units of 1024 bytes is what is true of them. -/
structure IsExact (result : Except QuotaError Unit) (size kb : Nat)
    (tooLarge : UInt64 → UInt64 → QuotaError) : Prop where
  fails_iff : (∃ cause, result = .error cause) ↔ Exceeds size kb
  /-- The error holds the size and the limit. -/
  error : ∀ cause, result = .error cause → ∃ found limit : UInt64, cause = tooLarge found limit ∧
    found.toNat = size ∧ limit.toNat = kb * 1024
  /-- The limit of a check that fails fits in 64 bits. -/
  unsaturated : ∀ cause, result = .error cause → kb * 1024 < UInt64.size

theorem within_eq_error_iff {size kb : UInt64} {tooLarge : UInt64 → QuotaError}
    {cause : QuotaError} :
    within size (Limits.limitBytes kb) tooLarge = .error cause ↔
      0 < kb ∧ saturatingBytes kb < size ∧ cause = tooLarge (saturatingBytes kb) := by
  unfold Limits.limitBytes
  by_cases hkb : 0 < kb
  · rw [if_pos hkb]
    by_cases hlt : saturatingBytes kb < size
    · simp [within, hkb, hlt, eq_comm]
    · simp [within, hlt]
  · rw [if_neg hkb]
    simp [within, hkb]

/-- A check is exact about the size that it gets. -/
theorem within_isExact (size kb : UInt64) (tooLarge : UInt64 → UInt64 → QuotaError) :
    IsExact (within size (Limits.limitBytes kb) (tooLarge size)) size.toNat kb.toNat tooLarge where
  fails_iff := by
    have hpos : 0 < kb ↔ 0 < kb.toNat := UInt64.lt_iff_toNat_lt
    simp only [within_eq_error_iff, hpos, saturatingBytes_lt_iff, Exceeds, exists_and_left,
      exists_eq, and_true]
  error := by
    intro cause h
    obtain ⟨-, hlt, rfl⟩ := within_eq_error_iff.mp h
    exact ⟨size, saturatingBytes kb, rfl, rfl, toNat_saturatingBytes_of_lt hlt⟩
  unsaturated := by
    intro cause h
    obtain ⟨-, hlt, -⟩ := within_eq_error_iff.mp h
    exact Nat.lt_trans (saturatingBytes_lt_iff.mp hlt) size.toNat_lt

/-! ## Adding up sizes -/

/-- The sum of two sizes, nothing if it does not fit in 64 bits. -/
def checkedAdd? (a b : UInt64) : Option UInt64 :=
  if a.toNat + b.toNat < UInt64.size then some (a + b) else none

/-- The size of a list and a value, added up from the front. There is nothing if any of the sums on
the way does not fit in 64 bits. -/
def checkedSize? (declarations : List Declaration) (value : String) : Option UInt64 := do
  let size ← declarations.foldlM (fun size d => checkedAdd? size (byteSize d.value)) 0
  checkedAdd? size (byteSize value)

variable {declarations : List Declaration} {value : String}

theorem toNat_byteSize (h : value.utf8ByteSize < UInt64.size) :
    (byteSize value).toNat = value.utf8ByteSize :=
  UInt64.toNat_ofNat_of_lt' h

theorem toNat_listSize (h : totalSize declarations < UInt64.size) :
    (listSize declarations).toNat = totalSize declarations := by
  rw [listSize_eq, UInt64.toNat_ofNat_of_lt' h]

theorem toNat_listSize_add_byteSize
    (h : totalSize declarations + value.utf8ByteSize < UInt64.size) :
    (listSize declarations + byteSize value).toNat =
      totalSize declarations + value.utf8ByteSize := by
  rw [listSize_eq, byteSize, ← UInt64.ofNat_add, UInt64.toNat_ofNat_of_lt' h]

theorem checkedAdd?_eq_some {a b : UInt64} (h : a.toNat + b.toNat < UInt64.size) :
    checkedAdd? a b = some (a + b) :=
  if_pos h

/-- From any start, sums that fit at the end fit on the way. -/
theorem foldlM_checkedAdd?_eq (start : UInt64)
    (h : start.toNat + totalSize declarations < UInt64.size) :
    declarations.foldlM (fun size d => checkedAdd? size (byteSize d.value)) start =
      some (start + listSize declarations) := by
  induction declarations generalizing start with
  | nil => exact congrArg some (UInt64.add_zero start).symm
  | cons d rest ih =>
    rw [totalSize_cons] at h
    have hd : (byteSize d.value).toNat = d.value.utf8ByteSize := toNat_byteSize (by omega)
    -- the sum so far is no more than the sum at the end, so it fits
    have hadd : (start + byteSize d.value).toNat = start.toNat + d.value.utf8ByteSize := by
      rw [UInt64.toNat_add, hd]
      exact Nat.mod_eq_of_lt (by show _ < UInt64.size; omega)
    have hcons : listSize (d :: rest) = byteSize d.value + listSize rest := rfl
    rw [List.foldlM_cons, checkedAdd?_eq_some (by omega), Option.bind_eq_bind, Option.bind_some,
      ih _ (by omega), hcons, UInt64.add_assoc]

/-- **No addition goes over the end** if the size of all values together fits. -/
theorem checkedSize?_eq (h : totalSize declarations + value.utf8ByteSize < UInt64.size) :
    checkedSize? declarations value = some (listSize declarations + byteSize value) := by
  have hfits : (0 : UInt64).toNat + totalSize declarations < UInt64.size := by
    rw [UInt64.toNat_zero]
    omega
  have hlist := foldlM_checkedAdd?_eq 0 hfits
  rw [UInt64.zero_add] at hlist
  rw [checkedSize?, hlist, Option.bind_eq_bind, Option.bind_some, checkedAdd?_eq_some]
  rw [toNat_listSize (by omega), toNat_byteSize (by omega)]
  exact h

/-! ## All checks -/

theorem checkValue_isExact (limits : Limits) (h : value.utf8ByteSize < UInt64.size) :
    IsExact (checkValue value limits) value.utf8ByteSize limits.valueKb.toNat .valueTooLarge := by
  have hexact := within_isExact (byteSize value) limits.valueKb .valueTooLarge
  rwa [toNat_byteSize h] at hexact

theorem checkList_isExact (limits : Limits)
    (h : totalSize declarations + value.utf8ByteSize < UInt64.size) :
    IsExact (checkList declarations value limits) (totalSize declarations + value.utf8ByteSize)
      limits.listKb.toNat .listTooLarge := by
  have hexact :=
    within_isExact (listSize declarations + byteSize value) limits.listKb .listTooLarge
  rwa [toNat_listSize_add_byteSize h] at hexact

theorem check_of_checkValue_eq_error {limits : Limits} {cause : QuotaError}
    (h : checkValue value limits = .error cause) :
    check declarations value limits = .error cause := by
  rw [check, h]
  rfl

theorem check_of_checkValue_eq_ok {limits : Limits} (h : checkValue value limits = .ok ()) :
    check declarations value limits = checkList declarations value limits := by
  rw [check, h]
  rfl

/--
**Checks are exact up to the end of 64 bits.**

If the size of all values together fits in 64 bits, no addition goes over the end, and the checks of
the value and of the list say what is true of sizes and limits without bound, whatever the limits
are. Both together say that the value is too large whenever it is, whether the list is or not, and
otherwise what the check of the list says.
-/
theorem check_exact (limits : Limits)
    (h : totalSize declarations + value.utf8ByteSize < UInt64.size) :
    IsExact (checkValue value limits) value.utf8ByteSize limits.valueKb.toNat .valueTooLarge ∧
      IsExact (checkList declarations value limits) (totalSize declarations + value.utf8ByteSize)
        limits.listKb.toNat .listTooLarge ∧
      (∃ size, checkedSize? declarations value = some size ∧
        size = listSize declarations + byteSize value ∧
        size.toNat = totalSize declarations + value.utf8ByteSize) ∧
      (Exceeds value.utf8ByteSize limits.valueKb.toNat → ∃ found limit : UInt64,
        check declarations value limits = .error (.valueTooLarge found limit) ∧
          found.toNat = value.utf8ByteSize ∧ limit.toNat = limits.valueKb.toNat * 1024) ∧
      (¬Exceeds value.utf8ByteSize limits.valueKb.toNat →
        IsExact (check declarations value limits)
          (totalSize declarations + value.utf8ByteSize) limits.listKb.toNat .listTooLarge) := by
  have hvalue := checkValue_isExact limits (Nat.lt_of_le_of_lt (Nat.le_add_left _ _) h)
  have hlist := checkList_isExact limits h
  refine ⟨hvalue, hlist, ⟨_, checkedSize?_eq h, rfl, toNat_listSize_add_byteSize h⟩, ?_, ?_⟩
  · intro hexceeds
    obtain ⟨cause, hcause⟩ := hvalue.fails_iff.mpr hexceeds
    obtain ⟨found, limit, rfl, hfound, hlimit⟩ := hvalue.error cause hcause
    exact ⟨found, limit, check_of_checkValue_eq_error hcause, hfound, hlimit⟩
  · intro hwithin
    cases hcheck : checkValue value limits with
    | error cause => exact absurd (hvalue.fails_iff.mp ⟨cause, hcheck⟩) hwithin
    | ok _ => rwa [check_of_checkValue_eq_ok hcheck]

/-- The limit for a value is one byte more than fits in 64 bits, and the value passes it. Together
with a letter of two bytes it is one byte too large for the list. -/
theorem check_exact_saturated :
    let declarations : List Declaration := [{ key := "A", value := "é" }]
    let value : String := String.ofList (List.replicate 1023 'x')
    let limits : Limits := ⟨18014398509481984, 1⟩
    totalSize declarations + value.utf8ByteSize < UInt64.size ∧
      limits.valueKb.toNat * 1024 = UInt64.size ∧
      IsExact (checkValue value limits) value.utf8ByteSize limits.valueKb.toNat .valueTooLarge ∧
      ¬Exceeds value.utf8ByteSize limits.valueKb.toNat ∧
      IsExact (check declarations value limits)
        (totalSize declarations + value.utf8ByteSize) limits.listKb.toNat .listTooLarge ∧
      checkedSize? declarations value = some 1025 ∧
      check declarations value limits = .error (.listTooLarge 1025 1024) := by
  intro declarations value limits
  have h : totalSize declarations + value.utf8ByteSize < UInt64.size := by decide +kernel
  obtain ⟨hvalue, -, -, -, hrest⟩ := check_exact limits h
  have hwithin : ¬Exceeds value.utf8ByteSize limits.valueKb.toNat :=
    fun hexceeds => absurd hexceeds.2 (by decide +kernel)
  exact ⟨h, by decide +kernel, hvalue, hwithin, hrest hwithin, by decide +kernel, by decide +kernel⟩

end Quota

end OrderedEnv
