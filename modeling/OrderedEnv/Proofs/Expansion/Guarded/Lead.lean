import OrderedEnv.Expansion.Bytes.Guarded
import OrderedEnv.Proofs.Expansion.Scan
import OrderedEnv.Proofs.Text.Boundary

/-!
# What stands behind a `$`, read with guards

The bytes that have a meaning are of ASCII, so the positions on both sides of one are between
characters. The bounds of a name, and the end of what is taken with it, are such positions, or the
start of the text. `leadFits_lead` says so of the places alone, and `exists_lead` that the name is
cut out at its place, wherever there is text at all.
-/

namespace OrderedEnv.Expansion.Bytes.Guarded

open OrderedEnv.Text

/-! ## Reads -/

section Reads

variable {text : String} {slice : Slice}

theorem bytesOf_eq (text : String) : bytesOf text = utf8 text.toList := toList_toUTF8 text

@[simp] theorem length_bytesOf (text : String) : (bytesOf text).length = text.utf8ByteSize := by
  rw [bytesOf_eq, utf8ByteSize_eq]

theorem bytesOf_append (front back : String) :
    bytesOf (front ++ back) = bytesOf front ++ bytesOf back := by
  rw [bytesOf_eq, bytesOf_eq, bytesOf_eq, String.toList_append, utf8_append]

theorem eq_of_bytesOf_eq {a b : String} (h : bytesOf a = bytesOf b) : a = b := by
  have ha := fromUTF8?_utf8 a.toList
  rw [← bytesOf_eq, h, bytesOf_eq, fromUTF8?_utf8, String.ofList_toList, String.ofList_toList] at ha
  exact (Option.some.inj ha).symm

theorem fromUTF8?_bytesOf (text : String) :
    String.fromUTF8? ⟨(bytesOf text).toArray⟩ = some text := by
  rw [bytesOf_eq, fromUTF8?_utf8, String.ofList_toList]

theorem byteAt_eq_ok_iff {pos : Nat} {b : UInt8} :
    byteAt text pos = .ok b ↔ (bytesOf text)[pos]? = some b := by
  unfold byteAt
  cases (bytesOf text)[pos]? <;> simp

theorem fits_of_isValid (hle : slice.start ≤ slice.stop)
    (hstart : String.Pos.Raw.IsValid text ⟨slice.start⟩)
    (hstop : String.Pos.Raw.IsValid text ⟨slice.stop⟩) : Fits text slice :=
  ⟨hle, hstop.le_utf8ByteSize, hstart, hstop⟩

/-- A slice is cut out just if it fits. -/
theorem exists_cut_iff : (∃ part, cut text slice = .ok part) ↔ Fits text slice := by
  constructor
  · rintro ⟨part, h⟩
    by_contra hfits
    rw [cut, dif_neg hfits] at h
    cases h
  · intro hfits
    rw [cut, dif_pos hfits]
    exact ⟨_, rfl⟩

example : cut "é" ⟨0, 1⟩ = .error (.slice ⟨0, 1⟩) := by cbv

/-- What is cut out has the bytes of the slice. -/
theorem exists_cut (h : Fits text slice) :
    ∃ part, cut text slice = .ok part ∧ bytesOf part = slice.of (bytesOf text) := by
  refine ⟨_, dif_pos h, ?_⟩
  rw [bytesOf, String.toUTF8_eq_toByteArray, String.toByteArray_extract, ByteArray.data_extract,
    Array.toList_extract, List.extract_eq_take_drop]
  rfl

/-- What is cut out up to the end is the back of the text. -/
theorem exists_cut_back {start : Nat} (h : String.Pos.Raw.IsValid text ⟨start⟩) :
    ∃ front back, cut text ⟨start, text.utf8ByteSize⟩ = .ok back ∧ text = front ++ back ∧
      front.utf8ByteSize = start := by
  obtain ⟨front, back, rfl, hstart⟩ := String.Pos.Raw.isValid_iff_exists_append.mp h
  have hfront : front.utf8ByteSize = start := (congrArg String.Pos.Raw.byteIdx hstart).symm
  have hfits : Fits (front ++ back) ⟨start, (front ++ back).utf8ByteSize⟩ :=
    fits_of_isValid h.le_utf8ByteSize h String.Pos.Raw.isValid_rawEndPos
  obtain ⟨part, hcut, hpart⟩ := exists_cut hfits
  have hback : part = back := by
    refine eq_of_bytesOf_eq ?_
    rw [hpart, Slice.of, bytesOf_append, ← hfront, ← length_bytesOf, List.drop_left,
      List.take_of_length_le]
    simp
  exact ⟨front, back, hback ▸ hcut, rfl, hfront⟩

/-- A slice of the back of a text, counted from the start of the text. -/
theorem slice_of_add {bytes behind : List UInt8} {n : Nat} (h : bytes.drop n = behind) :
    (⟨n + slice.start, n + slice.stop⟩ : Slice).of bytes = slice.of behind := by
  rw [Slice.of, Slice.of, ← h, List.drop_drop, Nat.add_sub_add_left]

/-- The positions on both sides of a byte of ASCII are between characters. -/
theorem isValid_of_byte {pos : Nat} {b : UInt8} (h : (bytesOf text)[pos]? = some b)
    (hb : b.toNat < 0x80) :
    String.Pos.Raw.IsValid text ⟨pos⟩ ∧ String.Pos.Raw.IsValid text ⟨pos + 1⟩ :=
  isValid_of_ascii (bytesOf_eq text ▸ h) hb

end Reads

/-! ## Bytes with a meaning -/

theorem lt_of_test {p : UInt8 → Bool} (hp : ∀ n < 256, p (UInt8.ofNat n) = true → n < 0x80)
    {b : UInt8} (hb : p b = true) : b.toNat < 0x80 := by
  refine hp b.toNat b.toNat_lt ?_
  rwa [UInt8.ofNat_toNat]

theorem lt_of_isSpecial {b : UInt8} (hb : isSpecial b = true) : b.toNat < 0x80 :=
  lt_of_test (by decide +kernel) hb

theorem lt_of_isNameByte {b : UInt8} (hb : isNameByte b = true) : b.toNat < 0x80 :=
  lt_of_test (by decide +kernel) hb

/-! ## What stands behind a `$` -/

/-- What was found fits the text behind the `$`. -/
structure LeadFits (rest : String) (found : Bytes.Lead) : Prop where
  /-- The name can be cut out, -/
  name : ∀ slice ∈ found.name, Fits rest slice
  /-- and what is taken ends between characters. -/
  width : String.Pos.Raw.IsValid rest ⟨found.width⟩

section Leads

variable {rest : String} {b : UInt8} {bs : List UInt8}

theorem leadFits_of_none {width : Nat} (h : String.Pos.Raw.IsValid rest ⟨width⟩) :
    LeadFits rest ⟨none, width⟩ :=
  ⟨fun _ hslice => absurd hslice (Option.not_mem_none _), h⟩

theorem leadFits_of_some {slice : Slice} {width : Nat} (hslice : Fits rest slice)
    (hwidth : String.Pos.Raw.IsValid rest ⟨width⟩) : LeadFits rest ⟨some slice, width⟩ := by
  refine ⟨?_, hwidth⟩
  rintro _ ⟨⟩
  exact hslice

theorem leadFits_braced (hrest : bytesOf rest = openBrace :: bs) :
    LeadFits rest (Bytes.braced bs) := by
  have hopen : (bytesOf rest)[0]? = some openBrace := by rw [hrest]; rfl
  have hbehind := (isValid_of_byte hopen (by decide)).2
  unfold Bytes.braced
  cases hfound : bs.findIdx? (· = closeBrace) with
  | none => exact leadFits_of_none hbehind
  | some n =>
    obtain ⟨hn, hclose, -⟩ := List.findIdx?_eq_some_iff_getElem.mp hfound
    have hbyte : (bytesOf rest)[n + 1]? = some closeBrace := by
      rw [hrest, List.getElem?_cons_succ, List.getElem?_eq_getElem hn, of_decide_eq_true hclose]
    obtain ⟨hstop, hwidth⟩ := isValid_of_byte hbyte (by decide)
    cases n with
    | zero => exact leadFits_of_none hwidth
    | succ n => exact leadFits_of_some (fits_of_isValid (by simp) hbehind hstop) hwidth

theorem leadFits_lead (rest : String) : LeadFits rest (Bytes.lead (bytesOf rest)) := by
  cases hrest : bytesOf rest with
  | nil => exact leadFits_of_none String.Pos.Raw.isValid_zero
  | cons b bs =>
    have hfirst : (bytesOf rest)[0]? = some b := by rw [hrest]; rfl
    by_cases hbrace : b = openBrace
    · subst hbrace
      rw [Bytes.lead_openBrace]
      exact leadFits_braced hrest
    · rw [Bytes.lead, if_neg hbrace]
      by_cases hspecial : isSpecial b = true
      · rw [if_pos hspecial]
        have hwidth := (isValid_of_byte hfirst (lt_of_isSpecial hspecial)).2
        exact leadFits_of_some (fits_of_isValid (by simp) String.Pos.Raw.isValid_zero hwidth) hwidth
      · rw [if_neg hspecial]
        cases hlength : ((b :: bs).takeWhile isNameByte).length with
        | zero => exact leadFits_of_none String.Pos.Raw.isValid_zero
        | succ n =>
          -- the last byte of the name is one that a name can have
          have hn : n < ((b :: bs).takeWhile isNameByte).length := hlength ▸ Nat.lt_succ_self n
          have hname := List.mem_takeWhile_imp (List.getElem_mem hn)
          have hlast : (bytesOf rest)[n]? = some ((b :: bs).takeWhile isNameByte)[n] := by
            rw [hrest]
            exact List.prefix_iff_getElem?.mp (List.takeWhile_prefix isNameByte) n hn
          have hwidth := (isValid_of_byte hlast (lt_of_isNameByte hname)).2
          exact leadFits_of_some
            (fits_of_isValid (by simp) String.Pos.Raw.isValid_zero hwidth) hwidth

/-- The name at a place in the text behind the `$`, once it is cut out. -/
def cutName (rest : String) (found : Bytes.Lead) : Except Refusal Lead := do
  match found.name with
  | none => return ⟨none, found.width⟩
  | some slice => return ⟨some (← cut rest slice), found.width⟩

theorem isShortBraced_eq (hrest : bytesOf rest = b :: bs) :
    isShortBraced rest = .ok (Bytes.isShortBraced bs) := by
  have hsize : rest.utf8ByteSize = bs.length + 1 := by
    rw [← length_bytesOf, hrest, List.length_cons]
  rw [isShortBraced, hsize]
  match bs with
  | [] => rfl
  | [_] => rfl
  | c :: d :: bs =>
    have hlong : ¬(c :: d :: bs).length + 1 ≤ 2 := by simp
    have hc : byteAt rest 1 = .ok c := byteAt_eq_ok_iff.mpr (by rw [hrest]; rfl)
    have hd : byteAt rest 2 = .ok d := byteAt_eq_ok_iff.mpr (by rw [hrest]; rfl)
    rw [if_neg hlong, hc, hd, Bytes.isShortBraced]
    show (if isSpecial c = true then _ else _) = _
    cases isSpecial c <;> rfl

theorem braced_eq (hrest : bytesOf rest = b :: bs) :
    braced rest = cutName rest (Bytes.braced bs) := by
  unfold braced Bytes.braced
  rw [hrest, List.drop_one, List.tail_cons]
  rcases bs.findIdx? (· = closeBrace) with _ | _ | n <;> rfl

/-- Looking for a name and cutting it out are done one after the other. -/
theorem lead_eq (hrest : bytesOf rest = b :: bs) :
    lead rest = cutName rest (Bytes.lead (b :: bs)) := by
  have hfirst : byteAt rest 0 = .ok b := byteAt_eq_ok_iff.mpr (by rw [hrest]; rfl)
  rw [lead, hfirst, Bytes.lead, hrest]
  show (if b = openBrace then _ else _) = _
  by_cases hbrace : b = openBrace
  · rw [if_pos hbrace, if_pos hbrace, isShortBraced_eq hrest]
    cases Bytes.isShortBraced bs with
    | true => rfl
    | false => exact braced_eq hrest
  · rw [if_neg hbrace, if_neg hbrace]
    by_cases hspecial : isSpecial b = true
    · rw [if_pos hspecial, if_pos hspecial]
      rfl
    · rw [if_neg hspecial, if_neg hspecial]
      cases ((b :: bs).takeWhile isNameByte).length <;> rfl

/-- What was found is what stands at the places. -/
structure Names (rest : String) (places : Bytes.Lead) (found : Lead) : Prop where
  width : found.width = places.width
  name : Option.Rel (fun name slice => bytesOf name = slice.of (bytesOf rest))
    found.name places.name

theorem Names.isText_iff {places : Bytes.Lead} {found : Lead} (h : Names rest places found) :
    (found.name.isNone && decide (found.width = 0)) = true ↔ places = ⟨none, 0⟩ := by
  obtain ⟨name, width⟩ := found
  obtain ⟨slice, taken⟩ := places
  obtain ⟨hwidth, hname⟩ := h
  cases hname <;> simp_all

/-- A name is found, or none, wherever there is text. -/
theorem exists_lead (hrest : bytesOf rest = b :: bs) :
    ∃ found, lead rest = .ok found ∧ Names rest (Bytes.lead (b :: bs)) found := by
  have hfits := leadFits_lead rest
  rw [lead_eq hrest]
  rw [hrest] at hfits
  unfold cutName
  cases hname : (Bytes.lead (b :: bs)).name with
  | none => exact ⟨_, rfl, rfl, hname ▸ .none⟩
  | some slice =>
    obtain ⟨name, hcut, hbytes⟩ := exists_cut (hfits.name slice hname)
    refine ⟨⟨some name, _⟩, ?_, rfl, hname ▸ .some hbytes⟩
    simp only [hcut]
    rfl

end Leads

end OrderedEnv.Expansion.Bytes.Guarded
