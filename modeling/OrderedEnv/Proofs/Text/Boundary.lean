import OrderedEnv.Proofs.Text.Utf8

/-!
# Positions between characters

A position in the bytes of a text is valid if it stands between two characters, or at an end. Every
byte of a character that is not of ASCII is `0x80` or more, so a smaller byte is a whole character:
there are valid positions on both sides of it, wherever in the text it is found.
-/

namespace OrderedEnv.Text

theorem utf8ByteSize_eq (text : String) : text.utf8ByteSize = (utf8 text.toList).length := by
  rw [← toList_toUTF8, Array.length_toList, String.toUTF8_eq_toByteArray]
  exact String.size_toByteArray.symm

/-- A valid position cuts the characters of the text in two. -/
theorem isValid_iff {text : String} {pos : Nat} :
    String.Pos.Raw.IsValid text ⟨pos⟩ ↔
      ∃ front back, text.toList = front ++ back ∧ (utf8 front).length = pos := by
  rw [String.Pos.Raw.isValid_iff_exists_append]
  constructor
  · rintro ⟨front, back, rfl, hpos⟩
    refine ⟨front.toList, back.toList, String.toList_append, ?_⟩
    rw [← utf8ByteSize_eq]
    exact (congrArg String.Pos.Raw.byteIdx hpos).symm
  · rintro ⟨front, back, htext, rfl⟩
    refine ⟨String.ofList front, String.ofList back, ?_, ?_⟩
    · rw [← String.ofList_append, ← htext, String.ofList_toList]
    · rw [String.rawEndPos, utf8ByteSize_eq, String.toList_ofList]

/-! ## A byte of ASCII is a character -/

/-- A byte of ASCII is a whole character, wherever it stands. -/
theorem exists_of_getElem?_utf8 {cs : List Char} {pos : Nat} {b : UInt8}
    (h : (utf8 cs)[pos]? = some b) (hb : b.toNat < 0x80) :
    ∃ front c back, cs = front ++ c :: back ∧ (utf8 front).length = pos ∧
      (utf8 [c]).length = 1 := by
  induction cs generalizing pos with
  | nil => simp at h
  | cons c cs ih =>
    rw [utf8_cons, List.getElem?_append] at h
    split at h
    · -- the byte is one of the first character, which is then of ASCII and has no other
      rename_i hpos
      have hmem : b ∈ String.utf8EncodeChar c := List.mem_of_getElem? h
      have hc : c.toNat < 0x80 :=
        Nat.lt_of_not_le fun hc => Nat.not_lt.mpr (le_of_mem_utf8EncodeChar hc hmem) hb
      have hlength : (utf8 [c]).length = 1 := by
        rw [utf8_cons, utf8EncodeChar_of_lt hc]
        rfl
      refine ⟨[], c, cs, rfl, ?_, hlength⟩
      rw [utf8_cons, utf8_nil, List.append_nil] at hlength
      rw [utf8_nil, List.length_nil]
      omega
    · obtain ⟨front, d, back, rfl, hfront, hd⟩ := ih h
      refine ⟨c :: front, d, back, rfl, ?_, hd⟩
      rw [utf8_cons, List.length_append]
      omega

/-- So the positions on both sides of it are valid. -/
theorem isValid_of_ascii {text : String} {pos : Nat} {b : UInt8}
    (h : (utf8 text.toList)[pos]? = some b) (hb : b.toNat < 0x80) :
    String.Pos.Raw.IsValid text ⟨pos⟩ ∧ String.Pos.Raw.IsValid text ⟨pos + 1⟩ := by
  obtain ⟨front, c, back, htext, hfront, hc⟩ := exists_of_getElem?_utf8 h hb
  refine ⟨isValid_iff.mpr ⟨front, c :: back, htext, hfront⟩,
    isValid_iff.mpr ⟨front ++ [c], back, ?_, ?_⟩⟩
  · rw [htext, List.append_assoc, List.singleton_append]
  · rw [utf8_append, List.length_append, hfront, hc]

/-! ## Inside a character -/

/-- No position in the middle of a character is valid. -/
theorem not_isValid_of_inside {text : String} {front back : List Char} {c : Char} {k : Nat}
    (htext : text.toList = front ++ c :: back) (hpos : 0 < k) (hk : k < c.utf8Size) :
    ¬String.Pos.Raw.IsValid text ⟨(utf8 front).length + k⟩ := by
  rw [isValid_iff]
  rintro ⟨before, behind, hcut, hlength⟩
  rw [htext] at hcut
  rcases List.append_eq_append_iff.mp hcut with ⟨more, rfl, hmore⟩ | ⟨more, rfl, -⟩
  · -- the cut is at or behind the character, with all its bytes in front or none
    rw [utf8_append, List.length_append] at hlength
    cases more with
    | nil =>
      rw [utf8_nil, List.length_nil] at hlength
      omega
    | cons d more =>
      obtain ⟨rfl, -⟩ := List.cons.inj hmore
      rw [utf8_cons, List.length_append, String.length_utf8EncodeChar] at hlength
      omega
  · -- the cut is in front of the character
    rw [utf8_append, List.length_append] at hlength
    omega

end OrderedEnv.Text
