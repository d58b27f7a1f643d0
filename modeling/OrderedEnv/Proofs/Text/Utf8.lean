/-!
# The bytes of characters

A text and its bytes are the same thing: `utf8` gives the bytes of characters, and reading them
gives the characters again. A character of ASCII is one byte, and every byte of another character is
`0x80` or more. So a test for characters of ASCII can be made on bytes, and `Agrees` says that one
is.
-/

namespace OrderedEnv.Text

/-- The bytes of characters. -/
def utf8 (cs : List Char) : List UInt8 := cs.flatMap String.utf8EncodeChar

@[simp] theorem utf8_nil : utf8 [] = [] := rfl

@[simp] theorem utf8_cons (c : Char) (cs : List Char) :
    utf8 (c :: cs) = String.utf8EncodeChar c ++ utf8 cs := rfl

@[simp] theorem utf8_append (cs ds : List Char) : utf8 (cs ++ ds) = utf8 cs ++ utf8 ds :=
  List.flatMap_append

/-- The bytes of a text are those of its characters. -/
theorem toList_toUTF8 (text : String) : text.toUTF8.data.toList = utf8 text.toList := by
  have hbytes : text.toUTF8 = text.toList.utf8Encode := (String.utf8Encode_toList).symm
  rw [hbytes, List.utf8Encode, List.data_toByteArray, List.toList_toArray]
  rfl

theorem fromUTF8?_toUTF8 (text : String) : String.fromUTF8? text.toUTF8 = some text := by
  unfold String.fromUTF8?
  rw [String.toUTF8_eq_toByteArray, dif_pos text.isValidUTF8]
  rfl

/-- The bytes of characters are read as the text of these characters. -/
theorem fromUTF8?_utf8 (cs : List Char) :
    String.fromUTF8? ⟨(utf8 cs).toArray⟩ = some (String.ofList cs) := by
  have hbytes : (⟨(utf8 cs).toArray⟩ : ByteArray) = (String.ofList cs).toUTF8 := by
    rw [String.toUTF8_eq_toByteArray, String.toByteArray_ofList, List.utf8Encode]
    exact ByteArray.ext List.data_toByteArray.symm
  rw [hbytes, fromUTF8?_toUTF8]

/-! ## One character -/

theorem utf8EncodeChar_of_lt {c : Char} (h : c.toNat < 0x80) :
    String.utf8EncodeChar c = [UInt8.ofNat c.toNat] := by
  have hval : c.val.toNat ≤ 0x7F := Nat.le_of_lt_succ h
  simp only [String.utf8EncodeChar, hval, if_true]
  rfl

private theorem le_toNat_ofNat {n : Nat} (hlow : 0x80 ≤ n) (hhigh : n < 0x100) :
    0x80 ≤ (UInt8.ofNat n).toNat := by
  rw [UInt8.toNat_ofNat', Nat.mod_eq_of_lt hhigh]
  exact hlow

theorem le_of_mem_utf8EncodeChar {c : Char} (h : 0x80 ≤ c.toNat) {b : UInt8}
    (hb : b ∈ String.utf8EncodeChar c) : 0x80 ≤ b.toNat := by
  have hval : ¬c.val.toNat ≤ 0x7F := Nat.not_le_of_lt h
  simp only [String.utf8EncodeChar, hval, if_false] at hb
  -- in two, three or four bytes, each holds some of the bits above a mark that is 0x80 or more
  split at hb
  · simp only [List.mem_cons, List.not_mem_nil, or_false] at hb
    rcases hb with rfl | rfl <;> exact le_toNat_ofNat (by omega) (by omega)
  · split at hb
    · simp only [List.mem_cons, List.not_mem_nil, or_false] at hb
      rcases hb with rfl | rfl | rfl <;> exact le_toNat_ofNat (by omega) (by omega)
    · simp only [List.mem_cons, List.not_mem_nil, or_false] at hb
      rcases hb with rfl | rfl | rfl | rfl <;> exact le_toNat_ofNat (by omega) (by omega)

theorem utf8EncodeChar_ne_nil (c : Char) : String.utf8EncodeChar c ≠ [] := by
  intro h
  have hlen := String.length_utf8EncodeChar c
  rw [h] at hlen
  exact absurd c.utf8Size_pos (by simp [← hlen])

theorem utf8_ne_nil {cs : List Char} (h : cs ≠ []) : utf8 cs ≠ [] := by
  obtain ⟨c, cs, rfl⟩ := List.exists_cons_of_ne_nil h
  rw [utf8_cons]
  exact List.append_ne_nil_of_left_ne_nil (utf8EncodeChar_ne_nil c) _

/-! ## Tests on bytes -/

/-- A test on bytes gives for each byte of a character what a test on characters gives for it. -/
def Agrees (p : UInt8 → Bool) (q : Char → Bool) : Prop :=
  ∀ c, ∀ b ∈ String.utf8EncodeChar c, p b = q c

/-- It is enough to look at the bytes one by one, if only characters of ASCII pass. -/
theorem agrees_of_ascii {p : UInt8 → Bool} {q : Char → Bool}
    (hbyte : ∀ n < 256, p (UInt8.ofNat n) = (decide (n < 0x80) && q (Char.ofNat n)))
    (hascii : ∀ c, q c = true → c.toNat < 0x80) : Agrees p q := by
  intro c b hb
  have hn := hbyte b.toNat b.toNat_lt
  rw [UInt8.ofNat_toNat] at hn
  by_cases hc : c.toNat < 0x80
  · rw [utf8EncodeChar_of_lt hc, List.mem_singleton] at hb
    subst hb
    have hsmall : (UInt8.ofNat c.toNat).toNat = c.toNat := by
      rw [UInt8.toNat_ofNat']
      exact Nat.mod_eq_of_lt (by omega)
    rw [hn, hsmall, Char.ofNat_toNat, decide_eq_true hc, Bool.true_and]
  · have hbig : ¬b.toNat < 0x80 := Nat.not_lt.mpr (le_of_mem_utf8EncodeChar (by omega) hb)
    rw [hn, decide_eq_false hbig, Bool.false_and]
    exact (Bool.eq_false_iff.mpr fun hq => hc (hascii c hq)).symm

theorem agrees_eq {d : Char} (hd : d.toNat < 0x80) :
    Agrees (· = UInt8.ofNat d.toNat) (· = d) := by
  refine agrees_of_ascii (fun n hn => ?_) ?_
  · rw [← Bool.decide_and, decide_eq_decide]
    constructor
    · intro h
      have heq := congrArg UInt8.toNat h
      rw [UInt8.toNat_ofNat', UInt8.toNat_ofNat', Nat.mod_eq_of_lt hn,
        Nat.mod_eq_of_lt (by omega)] at heq
      rw [heq]
      exact ⟨hd, Char.ofNat_toNat d⟩
    · rintro ⟨hlow, rfl⟩
      have hvalid : n.isValidChar := .inl (by omega)
      rw [Char.ofNat, dif_pos hvalid]
      rfl
  · intro c hc
    obtain rfl := of_decide_eq_true hc
    exact hd

namespace Agrees

variable {p : UInt8 → Bool} {q : Char → Bool}

theorem of_mem_utf8 (h : Agrees p q) {cs : List Char} {value : Bool} (hcs : ∀ c ∈ cs, q c = value) :
    ∀ b ∈ utf8 cs, p b = value := by
  intro b hb
  obtain ⟨c, hc, hb⟩ := List.mem_flatMap.mp hb
  rw [h c b hb, hcs c hc]

/-- A run of bytes that pass ends where the run of characters ends. -/
theorem takeWhile_utf8 (h : Agrees p q) {cs : List Char} (hcs : ∀ c ∈ cs.head?, q c = false) :
    (utf8 cs).takeWhile p = [] := by
  cases cs with
  | nil => rfl
  | cons c cs =>
    obtain ⟨b, bs, hbytes⟩ := List.exists_cons_of_ne_nil (utf8EncodeChar_ne_nil c)
    have hb : p b = false := by
      rw [h c b (hbytes ▸ List.mem_cons_self), hcs c rfl]
    rw [utf8_cons, hbytes, List.cons_append, List.takeWhile_cons_of_neg (by simp [hb])]

end Agrees

end OrderedEnv.Text
