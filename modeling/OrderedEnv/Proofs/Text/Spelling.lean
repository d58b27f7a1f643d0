import OrderedEnv.Text.Ascii
import OrderedEnv.Text.WhiteSpace

/-!
# Words between white space

A line spells a word if it is that word, in letters of either case, with white space around it
(`Text.Spells`). This can be told by `Text.trim` and `Text.asciiLower`, because no letter that
changes its case is white space.
-/

namespace OrderedEnv.Text

/-- The line is the word in letters of either case, with white space around it. -/
def Spells (word line : String) : Prop :=
  ∃ front body back : List Char, line.toList = front ++ body ++ back ∧
    (∀ c ∈ front, isWhiteSpace c = true) ∧ (∀ c ∈ back, isWhiteSpace c = true) ∧
    body.map Char.toLower = word.toList

theorem isWhiteSpace_of_letter {c : Char} (hlow : 65 ≤ c.toNat) (hhigh : c.toNat ≤ 122) :
    isWhiteSpace c = false := by
  simp only [isWhiteSpace, Bool.or_eq_false_iff, Bool.and_eq_false_iff, decide_eq_false_iff_not]
  omega

/-- Letters that change their case are no white space, and do not become any. -/
theorem isWhiteSpace_toLower (c : Char) : isWhiteSpace c.toLower = isWhiteSpace c := by
  unfold Char.toLower
  split
  · next hcapital =>
    have hlow : 65 ≤ c.toNat := hcapital.1
    have hhigh : c.toNat ≤ 90 := hcapital.2
    have hsmall : (c.val + ('a'.val - 'A'.val)).toNat = c.toNat + 32 := by
      rw [UInt32.toNat_add, show ('a'.val - 'A'.val).toNat = 32 from rfl]
      exact Nat.mod_eq_of_lt (by change c.toNat + 32 < 2 ^ 32; omega)
    refine (isWhiteSpace_of_letter ?_ ?_).trans (isWhiteSpace_of_letter hlow (by omega)).symm
    · show 65 ≤ (c.val + ('a'.val - 'A'.val)).toNat
      omega
    · show (c.val + ('a'.val - 'A'.val)).toNat ≤ 122
      omega
  · rfl

/-- What is no white space is left. -/
theorem trim_append {line : String} {front body back : List Char}
    (hline : line.toList = front ++ body ++ back) (hfront : ∀ c ∈ front, isWhiteSpace c = true)
    (hback : ∀ c ∈ back, isWhiteSpace c = true) (hbody : ∀ c ∈ body, isWhiteSpace c = false) :
    trim line = String.ofList body := by
  have hself : ∀ {l : List Char}, (∀ c ∈ l, isWhiteSpace c = false) →
      l.dropWhile isWhiteSpace = l := by
    intro l hl
    cases l with
    | nil => rfl
    | cons c cs => exact List.dropWhile_cons_of_neg (by simp [hl c])
  rw [trim, hline, List.append_assoc, List.dropWhile_append_of_pos hfront]
  cases body with
  | nil =>
    have hnil : (back ++ []).dropWhile isWhiteSpace = [] := List.dropWhile_append_of_pos hback
    rw [List.append_nil] at hnil
    rw [List.nil_append, hnil]
    rfl
  | cons b bs =>
    rw [List.cons_append, List.dropWhile_cons_of_neg (by simp [hbody b]), ← List.cons_append,
      List.reverse_append, List.dropWhile_append_of_pos (by simpa using hback),
      hself fun c hc => hbody c (List.mem_reverse.mp hc), List.reverse_reverse]

/-- A line is what is left of it when it is trimmed, with white space around it. -/
theorem exists_trim (line : String) :
    ∃ front body back : List Char, line.toList = front ++ body ++ back ∧
      (∀ c ∈ front, isWhiteSpace c = true) ∧ (∀ c ∈ back, isWhiteSpace c = true) ∧
      trim line = String.ofList body := by
  let rest := line.toList.dropWhile isWhiteSpace
  refine ⟨line.toList.takeWhile isWhiteSpace, (rest.reverse.dropWhile isWhiteSpace).reverse,
    (rest.reverse.takeWhile isWhiteSpace).reverse, ?_, ?_, ?_, rfl⟩
  · rw [List.append_assoc, ← List.reverse_append, List.takeWhile_append_dropWhile,
      List.reverse_reverse, List.takeWhile_append_dropWhile]
  · exact List.all_eq_true.mp List.all_takeWhile
  · intro c hc
    exact List.all_eq_true.mp List.all_takeWhile c (List.mem_reverse.mp hc)

/-- **Trimming and small letters tell what a line spells.** -/
theorem spells_iff {word line : String} (hword : word.toList.any isWhiteSpace = false) :
    Spells word line ↔ asciiLower (trim line) = word := by
  constructor
  · rintro ⟨front, body, back, hline, hfront, hback, hbody⟩
    have hsolid : ∀ c ∈ body, isWhiteSpace c = false := by
      intro c hc
      rw [← isWhiteSpace_toLower]
      exact Bool.eq_false_iff.mpr (List.any_eq_false.mp hword _ (hbody ▸ List.mem_map_of_mem hc))
    rw [trim_append hline hfront hback hsolid, asciiLower, String.toList_ofList, hbody,
      String.ofList_toList]
  · intro h
    obtain ⟨front, body, back, hline, hfront, hback, htrim⟩ := exists_trim line
    refine ⟨front, body, back, hline, hfront, hback, ?_⟩
    rw [← h, htrim, asciiLower, String.toList_ofList, String.toList_ofList]

/-- The line spells one of some words. -/
theorem exists_spells_iff {words : List String} {line : String}
    (hwords : ∀ word ∈ words, word.toList.any isWhiteSpace = false) :
    (∃ word ∈ words, Spells word line) ↔ asciiLower (trim line) ∈ words := by
  constructor
  · rintro ⟨word, hmem, hspells⟩
    rwa [(spells_iff (hwords word hmem)).mp hspells]
  · intro hmem
    exact ⟨_, hmem, (spells_iff (hwords _ hmem)).mpr rfl⟩

end OrderedEnv.Text
