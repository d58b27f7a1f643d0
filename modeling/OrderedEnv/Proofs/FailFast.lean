import Mathlib.Data.List.Forall2

/-!
# Loops that stop at the first failure

Lists are often read element by element, and the first element that cannot be read ends the reading.
What is reported is then about that element, wherever else the list goes wrong.

`IsFirstWithout` says which element that is. The loops are `foldlM` and `mapM` over `Except`; both
fail just if there is such an element, and with its error.
-/

namespace OrderedEnv

variable {α β σ ε : Type}

/-- The `i`-th element of a list is the first one without a property. -/
structure IsFirstWithout (p : α → Prop) (xs : List α) (i : Nat) (x : α) : Prop where
  getElem? : xs[i]? = some x
  not : ¬p x
  before : ∀ (j : Nat) (y : α), j < i → xs[j]? = some y → p y

namespace IsFirstWithout

variable {p : α → Prop} {x y : α} {xs : List α} {i : Nat}

theorem not_nil : ¬IsFirstWithout p [] i x := fun h => by simpa using h.getElem?

/-- The first element has the property, or it is the one. -/
theorem cons_iff : IsFirstWithout p (x :: xs) i y ↔
    (i = 0 ∧ y = x ∧ ¬p x) ∨ (p x ∧ ∃ j, i = j + 1 ∧ IsFirstWithout p xs j y) := by
  constructor
  · rintro ⟨hy, hnot, hbefore⟩
    cases i with
    | zero =>
      obtain rfl : x = y := by simpa using hy
      exact .inl ⟨rfl, rfl, hnot⟩
    | succ i =>
      refine .inr ⟨hbefore 0 x (Nat.succ_pos i) rfl, i, rfl, by simpa using hy, hnot, ?_⟩
      exact fun j z hj hz => hbefore (j + 1) z (Nat.succ_lt_succ hj) (by simpa using hz)
  · rintro (⟨rfl, rfl, hnot⟩ | ⟨hx, j, rfl, hy, hnot, hbefore⟩)
    · exact ⟨rfl, hnot, fun j _ hj => absurd hj (Nat.not_lt_zero j)⟩
    · refine ⟨by simpa using hy, hnot, ?_⟩
      intro k z hk hz
      cases k with
      | zero =>
        obtain rfl : x = z := by simpa using hz
        exact hx
      | succ k => exact hbefore k z (Nat.lt_of_succ_lt_succ hk) (by simpa using hz)

theorem not_exists_nil {r : α → Prop} : ¬∃ i x, IsFirstWithout p [] i x ∧ r x := by
  rintro ⟨i, x, h, -⟩
  exact not_nil h

theorem exists_cons_iff {r : α → Prop} : (∃ i y, IsFirstWithout p (x :: xs) i y ∧ r y) ↔
    (¬p x ∧ r x) ∨ (p x ∧ ∃ i y, IsFirstWithout p xs i y ∧ r y) := by
  simp only [cons_iff]
  constructor
  · rintro ⟨i, y, ⟨rfl, rfl, hx⟩ | ⟨hx, j, rfl, h⟩, hr⟩
    · exact .inl ⟨hx, hr⟩
    · exact .inr ⟨hx, j, y, h, hr⟩
  · rintro (⟨hx, hr⟩ | ⟨hx, j, y, h, hr⟩)
    · exact ⟨0, x, .inl ⟨rfl, rfl, hx⟩, hr⟩
    · exact ⟨j + 1, y, .inr ⟨hx, j, rfl, h⟩, hr⟩

theorem mem (h : IsFirstWithout p xs i x) : x ∈ xs := List.mem_of_getElem? h.getElem?

end IsFirstWithout

theorem map_eq_ok_iff {f : α → β} {r : Except ε α} {b : β} :
    r.map f = .ok b ↔ ∃ a, r = .ok a ∧ f a = b := by
  cases r <;> simp [Except.map]

theorem map_eq_error_iff {f : α → β} {r : Except ε α} {e : ε} :
    r.map f = .error e ↔ r = .error e := by
  cases r <;> simp [Except.map]

theorem exists_map_eq_ok_iff {f : α → β} {r : Except ε α} :
    (∃ b, r.map f = .ok b) ↔ ∃ a, r = .ok a := by
  cases r <;> simp [Except.map]

/-- A fold that looks at each element by itself fails with the error of the first bad one. -/
theorem foldlM_eq_error_iff {f : σ → α → Except ε σ} {p : α → Prop} {fault : α → ε → Prop}
    (hok : ∀ s x, (∃ s', f s x = .ok s') ↔ p x) (herror : ∀ s x e, f s x = .error e ↔ fault x e)
    {xs : List α} {s : σ} {e : ε} :
    xs.foldlM f s = .error e ↔ ∃ i x, IsFirstWithout p xs i x ∧ fault x e := by
  induction xs generalizing s with
  | nil => exact iff_of_false (fun h => nomatch h) IsFirstWithout.not_exists_nil
  | cons x xs ih =>
    rw [List.foldlM_cons, IsFirstWithout.exists_cons_iff, ← hok s x, ← herror s x]
    cases hx : f s x with
    | error e' => simp [bind, Except.bind]
    | ok s' => simp [bind, Except.bind, ih]

/-- A fold that looks at each element by itself succeeds if all are good. -/
theorem exists_foldlM_eq_ok_iff {f : σ → α → Except ε σ} {p : α → Prop}
    (hok : ∀ s x, (∃ s', f s x = .ok s') ↔ p x) {xs : List α} {s : σ} :
    (∃ s', xs.foldlM f s = .ok s') ↔ ∀ x ∈ xs, p x := by
  induction xs generalizing s with
  | nil => simp [pure, Except.pure]
  | cons x xs ih =>
    rw [List.foldlM_cons, List.forall_mem_cons, ← hok s x]
    cases hx : f s x with
    | error e => simp [bind, Except.bind]
    | ok s' => simp [bind, Except.bind, ih]

theorem mapM_eq_error_iff {f : α → Except ε β} {xs : List α} {e : ε} :
    xs.mapM f = .error e ↔
      ∃ i x, IsFirstWithout (fun x => ∃ y, f x = .ok y) xs i x ∧ f x = .error e := by
  induction xs with
  | nil => exact iff_of_false (fun h => nomatch h) IsFirstWithout.not_exists_nil
  | cons x xs ih =>
    rw [List.mapM_cons, IsFirstWithout.exists_cons_iff, ← ih]
    cases hx : f x with
    | error e' => simp [bind, Except.bind]
    | ok y => cases xs.mapM f <;> simp [bind, Except.bind, pure, Except.pure]

theorem exists_mapM_eq_ok_iff {f : α → Except ε β} {xs : List α} :
    (∃ ys, xs.mapM f = .ok ys) ↔ ∀ x ∈ xs, ∃ y, f x = .ok y := by
  induction xs with
  | nil => simp [pure, Except.pure]
  | cons x xs ih =>
    rw [List.mapM_cons, List.forall_mem_cons, ← ih]
    cases f x with
    | error e => simp [bind, Except.bind]
    | ok y => cases xs.mapM f <;> simp [bind, Except.bind, pure, Except.pure]

theorem mapM_eq_ok_iff {f : α → Except ε β} {xs : List α} {ys : List β} :
    xs.mapM f = .ok ys ↔ List.Forall₂ (fun x y => f x = .ok y) xs ys := by
  induction xs generalizing ys with
  | nil => simp [pure, Except.pure, eq_comm]
  | cons x xs ih =>
    rw [List.mapM_cons, List.forall₂_cons_left_iff]
    simp only [← ih]
    cases hx : f x with
    | error e => simp [bind, Except.bind]
    | ok y => cases hxs : xs.mapM f <;> simp [bind, Except.bind, pure, Except.pure, eq_comm]

end OrderedEnv
