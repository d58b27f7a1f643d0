import Mathlib.Data.Set.Insert
import Mathlib.Logic.Relation
import OrderedEnv.Path

/-!
# Longer paths and the directories around a path

Bytes without a slash that are put behind a path make its last name longer, or are a name of their
own behind a slash (`Path.names_appendBytes`). No other name changes.
-/

namespace OrderedEnv.Path

/-! ## Names -/

theorem pieces_of_not_mem {bytes : List UInt8} (h : slash ∉ bytes) : pieces bytes = [bytes] := by
  induction bytes with
  | nil => rfl
  | cons b bs ih =>
    simp only [List.mem_cons, not_or] at h
    rw [pieces, if_neg (Ne.symm h.1), ih h.2]

theorem pieces_append (bytes : List UInt8) {more : List UInt8} (h : slash ∉ more) :
    ∃ front last, pieces bytes = front ++ [last] ∧ pieces (bytes ++ more) = front ++ [last ++ more] := by
  induction bytes with
  | nil => exact ⟨[], [], rfl, pieces_of_not_mem h⟩
  | cons b bs ih =>
    obtain ⟨front, last, hbs, hmore⟩ := ih
    by_cases hb : b = slash
    · refine ⟨[] :: front, last, ?_, ?_⟩
      · rw [pieces, if_pos hb, hbs, List.cons_append]
      · rw [List.cons_append, pieces, if_pos hb, hmore, List.cons_append]
    · cases front with
      | nil =>
        refine ⟨[], b :: last, ?_, ?_⟩
        · rw [pieces, if_neg hb, hbs]
          rfl
        · rw [List.cons_append, pieces, if_neg hb, hmore]
          rfl
      | cons name front =>
        refine ⟨(b :: name) :: front, last, ?_, ?_⟩
        · rw [pieces, if_neg hb, hbs]
          rfl
        · rw [List.cons_append, pieces, if_neg hb, hmore]
          rfl

/-- The last name gets longer. Behind a slash there is none yet. -/
theorem names_appendBytes (path : Path) {more : List UInt8} (h : slash ∉ more) (hne : more ≠ []) :
    ∃ front last, path.names = front ++ (if last = [] then [] else [last]) ∧
      (path.appendBytes more).names = front ++ [last ++ more] := by
  obtain ⟨front, last, hpath, hmore⟩ := pieces_append path.bytes h
  refine ⟨front.filter (!·.isEmpty), last, ?_, ?_⟩
  · rw [names, hpath, List.filter_append]
    cases last <;> simp
  · rw [names, appendBytes, hmore, List.filter_append]
    simp [hne]

/-! ## Directories around a path -/

/-- A path, the directory around it, the one around that, and so on. -/
def upward (path : Path) : Set Path :=
  {other | Relation.ReflTransGen (fun child parent => child.parent? = some parent) path other}

theorem mem_upward_self (path : Path) : path ∈ path.upward := .refl

theorem upward_subset {path parent : Path} (h : path.parent? = some parent) :
    parent.upward ⊆ path.upward :=
  fun _ hmem => hmem.head h

end OrderedEnv.Path
