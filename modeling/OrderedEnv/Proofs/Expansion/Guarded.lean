import OrderedEnv.Proofs.Expansion.Guarded.Lead

/-!
# No read of the scan is refused

`Guarded.parse` checks every byte and every slice before it reads it. Here it is shown that no check
ever fails and that the segments are those of the value.

A literal starts where a reference ends, or at the start of the text, and ends in front of a `$`, or
at the end. So it is between characters on both sides. The position of the scan itself is not: it
goes through the middle of characters.

`Scan.Inside` is what one step keeps. It says nothing of the position but that it is in range.
`Scan.Follows` says that the scan of positions alone is at the same place and has found the same
segments.
-/

namespace OrderedEnv.Expansion.Bytes.Guarded

open OrderedEnv.Text

/-! ## One position -/

namespace Scan

/-- What holds at every position that a scan comes to. The position may be in the middle of a
character. -/
structure Inside (text : String) (scan : Scan) : Prop where
  start : String.Pos.Raw.IsValid text ⟨scan.literalStart⟩
  ordered : scan.literalStart ≤ scan.pos
  inside : scan.pos ≤ text.utf8ByteSize

/-- The scan of positions is at the same place and has found the same segments. -/
structure Follows (text : String) (scan : Scan) (marked : Bytes.Scan) : Prop where
  literalStart : marked.literalStart = scan.literalStart
  pos : marked.pos = scan.pos
  marks : Locates (bytesOf text) marked.marks scan.segments

variable {text : String} {scan next : Scan} {marked : Bytes.Scan} {b : UInt8} {tail : List UInt8}

theorem inside_start (text : String) : Inside text start :=
  ⟨String.Pos.Raw.isValid_zero, Nat.le_refl 0, Nat.zero_le _⟩

theorem follows_start (text : String) : Follows text start ⟨0, 0, []⟩ := ⟨rfl, rfl, .nil⟩

theorem Follows.skip (h : Follows text scan marked) : Follows text scan.skip marked.skip :=
  ⟨h.literalStart, congrArg (· + 1) h.pos, h.marks⟩

theorem exists_drop_eq_cons (h : scan.pos < text.utf8ByteSize) :
    ∃ b tail, (bytesOf text).drop scan.pos = b :: tail := by
  rw [← length_bytesOf] at h
  exact ⟨_, _, List.drop_eq_getElem_cons h⟩

theorem getElem?_pos (hdrop : (bytesOf text).drop scan.pos = b :: tail) :
    (bytesOf text)[scan.pos]? = some b := by
  rw [← Nat.add_zero scan.pos, ← List.getElem?_drop, hdrop]
  rfl

theorem tail_eq_nil_iff (hdrop : (bytesOf text).drop scan.pos = b :: tail) :
    tail = [] ↔ text.utf8ByteSize ≤ scan.pos + 1 := by
  have hlength := congrArg List.length hdrop
  rw [List.length_drop, length_bytesOf, List.length_cons] at hlength
  rw [← List.length_eq_zero_iff]
  omega

/-! ### The text in which a name is looked for -/

/-- What is read where a name is looked for: the text behind the `$`, and what was found in it. -/
structure Behind (text : String) (scan : Scan) (tail : List UInt8) (rest : String)
    (found : Lead) : Prop where
  read : scan.behind? text = .ok (some rest)
  bytes : bytesOf rest = tail
  split : ∃ front, text = front ++ rest ∧ front.utf8ByteSize = scan.pos + 1
  lead : lead rest = .ok found
  names : Names rest (Bytes.lead tail) found

theorem behind?_eq_none (hdrop : (bytesOf text).drop scan.pos = b :: tail)
    (h : ¬(b = dollar ∧ tail ≠ [])) : scan.behind? text = .ok none := by
  have hend : b ≠ dollar ∨ text.utf8ByteSize ≤ scan.pos + 1 := by
    rw [← tail_eq_nil_iff hdrop]
    rwa [not_and_or, not_not] at h
  rw [behind?, byteAt_eq_ok_iff.mpr (getElem?_pos hdrop)]
  exact if_pos hend

/-- Behind a `$` the text can be cut, and what stands there can be read. -/
theorem exists_behind (hdrop : (bytesOf text).drop scan.pos = dollar :: tail) (hne : tail ≠ []) :
    ∃ rest found, Behind text scan tail rest found := by
  have hbyte := getElem?_pos hdrop
  obtain ⟨front, rest, hcut, htext, hfront⟩ :=
    exists_cut_back (isValid_of_byte hbyte (by decide)).2
  have hbytes : bytesOf rest = tail := by
    have htail := congrArg (List.drop 1) hdrop
    rw [List.drop_drop, ← hfront, htext, bytesOf_append, ← length_bytesOf, List.drop_left] at htail
    exact htail
  have hread : scan.behind? text = .ok (some rest) := by
    rw [behind?, byteAt_eq_ok_iff.mpr hbyte]
    show (if dollar ≠ dollar ∨ _ then _ else _) = _
    rw [if_neg (by simp [← tail_eq_nil_iff hdrop, hne]), hcut]
    rfl
  obtain ⟨c, cs, rfl⟩ := List.exists_cons_of_ne_nil hne
  obtain ⟨found, hlead, hnames⟩ := exists_lead hbytes
  exact ⟨rest, found, hread, hbytes, ⟨front, htext, hfront⟩, hlead, hnames⟩

/-- There is text behind a position where a name is looked for, and what is taken is inside it. -/
theorem exists_lead_of_behind? {rest : String} (h : scan.behind? text = .ok (some rest)) :
    rest ≠ "" ∧ ∃ found, lead rest = .ok found ∧ found.width ≤ rest.utf8ByteSize := by
  obtain ⟨b, hb, -⟩ := bind_eq_ok_iff.mp h
  obtain ⟨hpos, -⟩ := List.getElem?_eq_some_iff.mp (byteAt_eq_ok_iff.mp hb)
  obtain ⟨b, tail, hdrop⟩ := exists_drop_eq_cons (length_bytesOf text ▸ hpos)
  by_cases hlook : b = dollar ∧ tail ≠ []
  · obtain ⟨rfl, hne⟩ := hlook
    obtain ⟨behind, found, hbehind⟩ := exists_behind hdrop hne
    obtain rfl := Option.some.inj (Except.ok.inj (hbehind.read.symm.trans h))
    refine ⟨?_, found, hbehind.lead, ?_⟩
    · rintro rfl
      exact hne (hbehind.bytes.symm.trans rfl)
    · rw [hbehind.names.width, ← hbehind.bytes]
      exact (leadFits_lead behind).width.le_utf8ByteSize
  · have hnothing := (behind?_eq_none hdrop hlook).symm.trans h
    cases hnothing

/-! ### The text in front of a reference -/

/-- The text that is pending can be cut out up to any position between characters. -/
theorem Inside.exists_flush (h : Inside text scan) {stop : Nat}
    (hstop : String.Pos.Raw.IsValid text ⟨stop⟩) :
    ∃ done, scan.flush text stop = .ok done ∧
      ∀ marked, Follows text scan marked → marked.pos = stop →
        Locates (bytesOf text) marked.flush done := by
  unfold flush Bytes.Scan.flush
  by_cases hpending : scan.literalStart < stop
  · have hfits : Fits text ⟨scan.literalStart, stop⟩ :=
      fits_of_isValid hpending.le h.start hstop
    obtain ⟨literal, hcut, hliteral⟩ := exists_cut hfits
    refine ⟨.literal literal :: scan.segments, ?_, fun marked hm hpos => ?_⟩
    · rw [if_pos hpending, hcut]
      rfl
    · rw [hm.literalStart, hpos, if_pos hpending]
      refine .cons ?_ hm.marks
      rw [Mark.segment?, ← hliteral, fromUTF8?_bytesOf]
      rfl
  · refine ⟨scan.segments, if_neg hpending, fun marked hm hpos => ?_⟩
    rw [hm.literalStart, hpos, if_neg hpending]
    exact hm.marks

/-! ### One step -/

theorem Behind.next?_eq {rest : String} {found : Lead} (h : Behind text scan tail rest found)
    (hlt : scan.pos < text.utf8ByteSize) :
    scan.next? text =
      if found.name.isNone && found.width = 0 then .ok (some scan.skip)
      else (do return some (← scan.pass text found)) := by
  rw [next?, if_neg (Nat.not_le.mpr hlt), h.read]
  show (do let found ← Guarded.lead rest; _) = _
  rw [h.lead]
  rfl

/-- Text is passed over. -/
theorem next?_of_text (hlt : scan.pos < text.utf8ByteSize)
    (hdrop : (bytesOf text).drop scan.pos = b :: tail)
    (h : ¬(b = dollar ∧ Bytes.lead tail ≠ ⟨none, 0⟩)) : scan.next? text = .ok (some scan.skip) := by
  by_cases hlook : b = dollar ∧ tail ≠ []
  · obtain ⟨rfl, hne⟩ := hlook
    obtain ⟨rest, found, hbehind⟩ := exists_behind hdrop hne
    have htext : Bytes.lead tail = ⟨none, 0⟩ := not_not.mp fun hlead => h ⟨rfl, hlead⟩
    rw [hbehind.next?_eq hlt, if_pos (hbehind.names.isText_iff.mpr htext)]
  · rw [next?, if_neg (Nat.not_le.mpr hlt), behind?_eq_none hdrop hlook]
    rfl

/-- The place of a name, counted from the start of the text, is marked behind what was pending. -/
theorem locates_pass {rest : String} {found : Lead} {done : List Segment}
    (hdone : Locates (bytesOf text) marked.flush done)
    (hrest : (bytesOf text).drop (marked.pos + 1) = bytesOf rest)
    (hnames : Names rest (Bytes.lead tail) found) :
    Locates (bytesOf text) (marked.pass (Bytes.lead tail)).marks
      ((found.name.map .reference).toList ++ done) := by
  obtain ⟨name, width⟩ := found
  have hname := hnames.name
  unfold Bytes.Scan.pass
  generalize (Bytes.lead tail).name = place at hname ⊢
  cases hname with
  | none => exact hdone
  | some hbytes =>
    refine .cons ?_ hdone
    rw [Mark.segment?, slice_of_add hrest, ← hbytes, fromUTF8?_bytesOf]
    rfl

/-- The text in front of a `$` can be cut out, and what was found behind it ends between
characters. -/
theorem Inside.exists_pass (h : Inside text scan) {rest : String} {found : Lead}
    (hdrop : (bytesOf text).drop scan.pos = dollar :: tail)
    (hbehind : Behind text scan tail rest found) :
    ∃ next, scan.pass text found = .ok next ∧ Inside text next ∧
      ∀ marked, Follows text scan marked → Follows text next (marked.pass (Bytes.lead tail)) := by
  obtain ⟨front, htext, hfront⟩ := hbehind.split
  obtain ⟨done, hflush, hlocates⟩ :=
    h.exists_flush (isValid_of_byte (getElem?_pos hdrop) (by decide)).1
  have hwidth : String.Pos.Raw.IsValid text ⟨scan.pos + 1 + found.width⟩ := by
    rw [← hfront, hbehind.names.width, ← hbehind.bytes, htext]
    exact (leadFits_lead rest).width.append_left front
  refine ⟨⟨_, _, (found.name.map .reference).toList ++ done⟩, ?_,
    ⟨hwidth, Nat.le_refl _, hwidth.le_utf8ByteSize⟩, fun marked hm => ?_⟩
  · rw [pass, hflush]
    rfl
  · have hrest : (bytesOf text).drop (marked.pos + 1) = bytesOf rest := by
      rw [hm.pos, ← hfront, htext, bytesOf_append, ← length_bytesOf, List.drop_left]
    refine ⟨?_, ?_, locates_pass (hlocates marked hm hm.pos) hrest hbehind.names⟩
    · rw [Bytes.Scan.pass, hm.pos, hbehind.names.width]
    · rw [Bytes.Scan.pass, hm.pos, hbehind.names.width]

/-- A reference, and syntax that is dropped, are passed over whole. -/
theorem Inside.exists_next?_of_dollar (h : Inside text scan) (hlt : scan.pos < text.utf8ByteSize)
    (hdrop : (bytesOf text).drop scan.pos = dollar :: tail) (hlead : Bytes.lead tail ≠ ⟨none, 0⟩) :
    ∃ next, scan.next? text = .ok (some next) ∧ Inside text next ∧
      ∀ marked, Follows text scan marked → Follows text next (marked.pass (Bytes.lead tail)) := by
  have hne : tail ≠ [] := by
    rintro rfl
    exact hlead rfl
  obtain ⟨rest, found, hbehind⟩ := exists_behind hdrop hne
  obtain ⟨next, hpass, hnext⟩ := h.exists_pass hdrop hbehind
  refine ⟨next, ?_, hnext⟩
  rw [hbehind.next?_eq hlt, if_neg (mt hbehind.names.isText_iff.mp hlead), hpass]
  rfl

/-- **Before the end a step is made, and every read of it is good.** It keeps what holds, and the
scan of positions makes the same step. -/
theorem Inside.exists_next? (h : Inside text scan) (hlt : scan.pos < text.utf8ByteSize) :
    ∃ next, scan.next? text = .ok (some next) ∧ Inside text next ∧
      ∀ marked, Follows text scan marked →
        ∃ passed, marked.next? (bytesOf text) = some passed ∧ Follows text next passed := by
  obtain ⟨b, tail, hdrop⟩ := exists_drop_eq_cons hlt
  by_cases hpass : b = dollar ∧ Bytes.lead tail ≠ ⟨none, 0⟩
  · obtain ⟨rfl, hne⟩ := hpass
    obtain ⟨next, hnext, hinside, hfollows⟩ := h.exists_next?_of_dollar hlt hdrop hne
    refine ⟨next, hnext, hinside, fun marked hm => ⟨_, ?_, hfollows marked hm⟩⟩
    rw [Bytes.Scan.next?_cons (hm.pos ▸ hdrop), if_pos ⟨rfl, hne⟩]
  · refine ⟨scan.skip, next?_of_text hlt hdrop hpass, ⟨h.start, ?_, hlt⟩,
      fun marked hm => ⟨_, ?_, hm.skip⟩⟩
    · exact h.ordered.trans (Nat.le_succ _)
    · rw [Bytes.Scan.next?_cons (hm.pos ▸ hdrop), if_neg hpass]

/-! ### A whole scan -/

theorem next?_of_le (h : text.utf8ByteSize ≤ scan.pos) : scan.next? text = .ok none := by
  rw [next?, if_pos h]
  rfl

theorem finish_of_next? (h : scan.next? text = .ok (some next)) :
    finish text scan = finish text next := by
  rw [finish]
  split <;> simp_all

theorem finish_of_le (h : text.utf8ByteSize ≤ scan.pos) : finish text scan = .ok scan := by
  have hnone := next?_of_le h
  rw [finish]
  split <;> simp_all

/-- The scan comes to the end, at the same place as the scan of positions and with the same
segments. -/
theorem Inside.exists_finish {scan : Scan} (h : Inside text scan) :
    ∃ last, finish text scan = .ok last ∧ Inside text last ∧ last.pos = text.utf8ByteSize ∧
      ∀ marked, Follows text scan marked →
        Follows text last (Bytes.Scan.finish (bytesOf text) marked) := by
  by_cases hlt : scan.pos < text.utf8ByteSize
  · obtain ⟨next, hnext, hinside, hfollows⟩ := h.exists_next? hlt
    obtain ⟨last, hlast, hinside, hend, hrest⟩ := hinside.exists_finish
    refine ⟨last, (finish_of_next? hnext).trans hlast, hinside, hend, fun marked hm => ?_⟩
    obtain ⟨passed, hpassed, hm⟩ := hfollows marked hm
    rw [Bytes.Scan.finish_of_eq_some hpassed]
    exact hrest passed hm
  · have hend := Nat.le_antisymm h.inside (Nat.not_lt.mp hlt)
    refine ⟨scan, finish_of_le hend.ge, h, hend, fun marked hm => ?_⟩
    have hnil : (bytesOf text).drop marked.pos = [] := by
      rw [List.drop_eq_nil_iff, length_bytesOf, hm.pos, hend]
    rwa [Bytes.Scan.finish_of_eq_nil hnil]
termination_by text.utf8ByteSize - scan.pos
decreasing_by
  have := pos_lt_of_next? hnext
  omega

end Scan

/-- Every value is read, and its segments are found. -/
theorem parse_eq (value : String) : parse value = .ok (Expansion.parse value) := by
  obtain ⟨last, hfinish, hinside, hend, hfollows⟩ := (Scan.inside_start value).exists_finish
  obtain ⟨segments, hflush, hlocates⟩ := hinside.exists_flush String.Pos.Raw.isValid_rawEndPos
  have hm := hfollows _ (Scan.follows_start value)
  have hmarks : Locates (bytesOf value) (marks (bytesOf value)) segments.reverse :=
    List.rel_reverse (hlocates _ hm (hm.pos.trans hend))
  have hsegments : segments.reverse = Expansion.parse value :=
    Option.some.inj (hmarks.mapM_eq.symm.trans (parse?_eq value))
  rw [parse, hfinish, ← hsegments]
  show (do return (← last.flush value value.utf8ByteSize).reverse) = _
  rw [hflush]
  rfl

/-! ## Every position that is reached -/

namespace Scan

/-- The scans that the scan of a text comes to. -/
inductive Reached (text : String) : Scan → Prop
  | start : Reached text start
  | step {scan next : Scan} (h : Reached text scan) (hnext : scan.next? text = .ok (some next)) :
      Reached text next

/-- A position that the scan of a text looks at, or its end. -/
def Visits (text : String) (pos : Nat) : Prop := ∃ scan, Reached text scan ∧ scan.pos = pos

/-- What is good about a position of a scan. -/
structure Safe (text : String) (scan : Scan) : Prop where
  /-- The position has not passed the end. -/
  pos_le : scan.pos ≤ text.utf8ByteSize
  /-- Before the end every read that is made is good, and the scan goes on at a later position. -/
  advances : scan.pos < text.utf8ByteSize →
    ∃ next, scan.next? text = .ok (some next) ∧ scan.pos < next.pos ∧
      next.pos ≤ text.utf8ByteSize
  /-- The scan stops at the end. -/
  stops : scan.pos = text.utf8ByteSize → scan.next? text = .ok none
  /-- A name is looked for in text that is not empty. Every read of it is good, and no more is taken
  than there is. -/
  looks : ∀ rest, scan.behind? text = .ok (some rest) →
    rest ≠ "" ∧ ∃ found, lead rest = .ok found ∧ found.width ≤ rest.utf8ByteSize

variable {text : String} {scan next : Scan}

theorem Inside.of_next? (h : Inside text scan) (hnext : scan.next? text = .ok (some next)) :
    Inside text next := by
  obtain ⟨other, hother, hinside, -⟩ := h.exists_next? (pos_lt_size_of_next? hnext)
  obtain rfl := Option.some.inj (Except.ok.inj (hother.symm.trans hnext))
  exact hinside

theorem Reached.inside (h : Reached text scan) : Inside text scan := by
  induction h with
  | start => exact inside_start text
  | step _ hnext ih => exact ih.of_next? hnext

theorem Inside.safe (h : Inside text scan) : Safe text scan where
  pos_le := h.inside
  advances := by
    intro hlt
    obtain ⟨next, hnext, hinside, -⟩ := h.exists_next? hlt
    exact ⟨next, hnext, pos_lt_of_next? hnext, hinside.inside⟩
  stops := fun hend => next?_of_le hend.ge
  looks := fun _ hbehind => exists_lead_of_behind? hbehind

/-- Once the scan comes to a character other than `$`, it goes through it byte by byte. -/
theorem visits_add {front back : List Char} {c : Char} (htext : text.toList = front ++ c :: back)
    (hc : c ≠ '$') (h : Visits text (utf8 front).length) {k : Nat} (hk : k ≤ c.utf8Size) :
    Visits text ((utf8 front).length + k) := by
  induction k with
  | zero => exact h
  | succ k ih =>
    obtain ⟨scan, hreached, hpos⟩ := ih (Nat.le_of_succ_le hk)
    have hlength : k < (String.utf8EncodeChar c).length := by
      rw [String.length_utf8EncodeChar]
      exact hk
    have hdrop : (bytesOf text).drop scan.pos =
        (String.utf8EncodeChar c)[k] ::
          ((String.utf8EncodeChar c).drop (k + 1) ++ utf8 back) := by
      rw [bytesOf_eq, htext, hpos, utf8_append, utf8_cons, ← List.drop_drop, List.drop_left,
        List.drop_append_of_le_length hlength.le, List.drop_eq_getElem_cons hlength,
        List.cons_append]
    -- no byte of the character is a `$`, so each of them is passed over by itself
    have hb : (String.utf8EncodeChar c)[k] ≠ dollar :=
      of_decide_eq_false
        ((agrees_dollar c _ (List.getElem_mem hlength)).trans (decide_eq_false hc))
    have hlt : scan.pos < text.utf8ByteSize := by
      have hlong := congrArg List.length hdrop
      rw [List.length_drop, length_bytesOf, List.length_cons] at hlong
      omega
    have hnext := next?_of_text hlt hdrop fun hdollar => hb hdollar.1
    exact ⟨scan.skip, hreached.step hnext, congrArg (· + 1) hpos⟩

end Scan

/--
**No read of the scan is out of range or in the middle of a character.**

A text is only cut where a slice fits it: its bounds are in order, inside the text and between
characters. Every value is read to its end without a read that is refused, and its segments are
found. At every position that is reached the scan is safe: the position is in range, the next one is
later, and a name is looked for where there is text and takes no more of it than there is.

This is so although the positions go through the middle of characters: a scan that comes to a
character other than `$` looks at each byte of it.
-/
theorem parse_reads_inside (value : String) :
    (∀ text slice, (∃ part, cut text slice = .ok part) ↔ Fits text slice) ∧
    parse value = .ok (Expansion.parse value) ∧
    (∀ scan, Scan.Reached value scan → Scan.Safe value scan) ∧
    ∀ front c back, value.toList = front ++ c :: back → c ≠ '$' →
      Scan.Visits value (utf8 front).length → ∀ k, 0 < k → k < c.utf8Size →
        Scan.Visits value ((utf8 front).length + k) ∧
          ¬String.Pos.Raw.IsValid value ⟨(utf8 front).length + k⟩ := by
  refine ⟨fun _ _ => exists_cut_iff, parse_eq value, fun scan hscan => hscan.inside.safe, ?_⟩
  intro front c back hvalue hc hvisits k hpos hk
  exact ⟨Scan.visits_add hvalue hc hvisits hk.le, not_isValid_of_inside hvalue hpos hk⟩

/-- The scan of `é$A` looks at the second byte of `é`, and yet every slice of it fits. -/
theorem parse_reads_inside_accented :
    parse "é$A" = .ok [.literal "é", .reference "A"] ∧ Scan.Safe "é$A" .start ∧
      Scan.Visits "é$A" 1 ∧ ¬String.Pos.Raw.IsValid "é$A" ⟨1⟩ := by
  obtain ⟨-, hparse, hsafe, hvisits⟩ := parse_reads_inside "é$A"
  have hsegments : Expansion.parse "é$A" = [.literal "é", .reference "A"] := by cbv
  have hstart : Scan.Visits "é$A" (utf8 []).length := ⟨.start, .start, rfl⟩
  refine ⟨hsegments ▸ hparse, hsafe _ .start, ?_⟩
  exact hvisits [] 'é' ['$', 'A'] (by cbv) (by decide) hstart 1 (by decide) (by decide)

end OrderedEnv.Expansion.Bytes.Guarded
