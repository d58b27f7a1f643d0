import Mathlib.Data.List.Forall2
import OrderedEnv.Expansion.Bytes
import OrderedEnv.Proofs.Expansion.Grammar
import OrderedEnv.Proofs.Text.Utf8

/-!
# The scan of bytes reads the grammar

`Bytes.parse?` goes through the bytes of a value with two positions, and its segments are slices. It
finds what the grammar says, and every slice is the text of whole characters.

`Scan.At` is what holds at every position between two tokens: which characters wait for the end of
their literal, which are left to read, and that the marks are the segments that were found.
-/

namespace OrderedEnv.Expansion.Bytes

open OrderedEnv.Text

/-! ## Tests on bytes and on characters -/

theorem agrees_dollar : Agrees (· = dollar) (· = '$') := agrees_eq (d := '$') (by decide)

theorem agrees_openBrace : Agrees (· = openBrace) (· = '{') := agrees_eq (d := '{') (by decide)

theorem agrees_closeBrace : Agrees (· = closeBrace) (· = '}') := agrees_eq (d := '}') (by decide)

theorem lt_of_isShortName {c : Char} (h : IsShortName c) : c.toNat < 0x80 := by
  rcases h with hmem | ⟨-, hhigh⟩
  · have hall : ['*', '#', '$', '@', '!', '?', '-'].all (·.toNat < 0x80) = true := rfl
    exact of_decide_eq_true (List.all_eq_true.mp hall c hmem)
  · have : c.toNat ≤ 57 := hhigh
    omega

theorem lt_of_isNamePart {c : Char} (h : IsNamePart c) : c.toNat < 0x80 := by
  rcases h with (⟨-, hZ⟩ | ⟨-, hz⟩ | rfl) | hdigit
  · have : c.toNat ≤ 90 := hZ
    omega
  · have : c.toNat ≤ 122 := hz
    omega
  · decide
  · exact lt_of_isShortName (.inr hdigit)

theorem agrees_isSpecial : Agrees isSpecial Expansion.isSpecial :=
  agrees_of_ascii (by decide +kernel) fun c hc => lt_of_isShortName ((isSpecial_iff c).mp hc)

theorem agrees_isNameByte : Agrees isNameByte isNameChar :=
  agrees_of_ascii (by decide +kernel) fun c hc => lt_of_isNamePart ((isNameChar_iff c).mp hc)

/-! ## What stands behind a `$` -/

theorem utf8_dollar (cs : List Char) : utf8 ('$' :: cs) = dollar :: utf8 cs := rfl

theorem utf8_openBrace (cs : List Char) : utf8 ('{' :: cs) = openBrace :: utf8 cs := rfl

theorem utf8_closeBrace (cs : List Char) : utf8 ('}' :: cs) = closeBrace :: utf8 cs := rfl

theorem findIdx?_closeBrace {cs : List Char} (hcs : '}' ∉ cs) :
    (utf8 cs).findIdx? (· = closeBrace) = none := by
  rw [List.findIdx?_eq_none_iff]
  exact agrees_closeBrace.of_mem_utf8 fun c hc => decide_eq_false fun h => hcs (h ▸ hc)

theorem braced_utf8 {name : List Char} (hname : '}' ∉ name) (rest : List Char) :
    braced (utf8 (name ++ '}' :: rest)) =
      if name = [] then ⟨none, 2⟩
      else ⟨some ⟨1, (utf8 name).length + 1⟩, (utf8 name).length + 2⟩ := by
  have hfound :
      (utf8 (name ++ '}' :: rest)).findIdx? (· = closeBrace) = some (utf8 name).length := by
    rw [utf8_append, utf8_closeBrace, List.findIdx?_append, findIdx?_closeBrace hname]
    simp [List.findIdx?_cons]
  unfold braced
  rw [hfound]
  by_cases hnil : name = []
  · subst hnil
    rfl
  · rw [if_neg hnil]
    have hlength : (utf8 name).length ≠ 0 := mt List.length_eq_zero_iff.mp (utf8_ne_nil hnil)
    obtain ⟨n, hn⟩ := Nat.exists_eq_succ_of_ne_zero hlength
    rw [hn]

theorem braced_utf8_of_not_mem {cs : List Char} (hcs : '}' ∉ cs) :
    braced (utf8 cs) = ⟨none, 1⟩ := by
  unfold braced
  rw [findIdx?_closeBrace hcs]

/-- Behind a character that opens no braces and is no short name, the bytes of a name are taken. -/
theorem lead_of_takeWhile {c : Char} (hbrace : c ≠ '{') (hshort : ¬IsShortName c)
    {cs : List Char} {name : List UInt8} (hname : (utf8 (c :: cs)).takeWhile isNameByte = name) :
    lead (utf8 (c :: cs)) =
      if name = [] then ⟨none, 0⟩ else ⟨some ⟨0, name.length⟩, name.length⟩ := by
  obtain ⟨b, bs, hbytes⟩ := List.exists_cons_of_ne_nil (utf8EncodeChar_ne_nil c)
  have hmem : b ∈ String.utf8EncodeChar c := hbytes ▸ List.mem_cons_self
  have hb : b ≠ openBrace :=
    of_decide_eq_false ((agrees_openBrace c b hmem).trans (decide_eq_false hbrace))
  have hspecial : ¬isSpecial b = true := by
    rw [agrees_isSpecial c b hmem]
    exact mt (isSpecial_iff c).mp hshort
  rw [utf8_cons, hbytes, List.cons_append] at hname ⊢
  -- the first byte of the character decides, and it passes the tests that the character passes
  rw [lead, if_neg hb, if_neg hspecial, hname]
  cases name <;> rfl

theorem lead_utf8_of_text {c : Char} (hbrace : c ≠ '{') (hshort : ¬IsShortName c)
    (hname : ¬IsNameStart c) (cs : List Char) : lead (utf8 (c :: cs)) = ⟨none, 0⟩ := by
  have hpart : isNameChar c = false :=
    Bool.eq_false_iff.mpr (mt (isNameChar_iff c).mp (not_isNamePart hshort hname))
  have hnil : (utf8 (c :: cs)).takeWhile isNameByte = [] := by
    refine agrees_isNameByte.takeWhile_utf8 ?_
    rintro _ ⟨⟩
    exact hpart
  rw [lead_of_takeWhile hbrace hshort hnil, if_pos rfl]

theorem lead_utf8_of_isShortName {c : Char} (hc : IsShortName c) (cs : List Char) :
    lead (utf8 (c :: cs)) = ⟨some ⟨0, 1⟩, 1⟩ := by
  have hbytes := utf8EncodeChar_of_lt (lt_of_isShortName hc)
  have hmem : UInt8.ofNat c.toNat ∈ String.utf8EncodeChar c := hbytes ▸ List.mem_cons_self
  have hspecial : isSpecial (UInt8.ofNat c.toNat) = true := by
    rw [agrees_isSpecial c _ hmem]
    exact (isSpecial_iff c).mpr hc
  have hbrace : UInt8.ofNat c.toNat ≠ openBrace :=
    of_decide_eq_false ((agrees_openBrace c _ hmem).trans (decide_eq_false hc.ne_openBrace))
  rw [utf8_cons, hbytes, List.singleton_append, lead, if_neg hbrace, if_pos hspecial]

theorem lead_utf8_of_isNameStart {c : Char} (hc : IsNameStart c) {name rest : List Char}
    (hname : ∀ x ∈ name, IsNamePart x) (hrest : ∀ x ∈ rest.head?, ¬IsNamePart x) :
    lead (utf8 (c :: (name ++ rest))) =
      ⟨some ⟨0, (utf8 (c :: name)).length⟩, (utf8 (c :: name)).length⟩ := by
  have hall : ∀ x ∈ c :: name, isNameChar x = true := by
    intro x hx
    rw [isNameChar_iff]
    rcases List.mem_cons.mp hx with rfl | hx
    · exact .inl hc
    · exact hname x hx
  have hstop : (utf8 rest).takeWhile isNameByte = [] :=
    agrees_isNameByte.takeWhile_utf8 fun x hx =>
      Bool.eq_false_iff.mpr (mt (isNameChar_iff x).mp (hrest x hx))
  have hrun : (utf8 (c :: (name ++ rest))).takeWhile isNameByte = utf8 (c :: name) := by
    rw [← List.cons_append, utf8_append,
      List.takeWhile_append_of_pos (agrees_isNameByte.of_mem_utf8 hall), hstop, List.append_nil]
  rw [lead_of_takeWhile hc.ne_openBrace hc.not_isShortName hrun, if_neg (utf8_ne_nil (by simp))]

/-- What is read behind the `$` of a token. -/
def leadOf : Token → Lead
  | .char _ => ⟨none, 0⟩
  | .emptyBraces => ⟨none, 2⟩
  | .openBrace => ⟨none, 1⟩
  | .braced name => ⟨some ⟨1, (utf8 name).length + 1⟩, (utf8 name).length + 2⟩
  | .bare name => ⟨some ⟨0, (utf8 name).length⟩, (utf8 name).length⟩

theorem lead_utf8 {cs rest : List Char} {t : Token} (h : Starts ('$' :: cs) t rest) :
    lead (utf8 cs) = leadOf t := by
  cases h with
  | plain hc => exact absurd rfl hc
  | lastDollar => rfl
  | dollar hbrace hshort hname => exact lead_utf8_of_text hbrace hshort hname _
  | emptyBraces =>
    rw [utf8_openBrace, lead_openBrace]
    exact braced_utf8 List.not_mem_nil rest
  | braced hne hname =>
    rw [utf8_openBrace, lead_openBrace, braced_utf8 hname, if_neg hne]
    rfl
  | openBrace hrest =>
    rw [utf8_openBrace, lead_openBrace, braced_utf8_of_not_mem hrest]
    rfl
  | @short c _ hc =>
    have hlength : (utf8 [c]).length = 1 := by
      rw [utf8_cons, utf8EncodeChar_of_lt (lt_of_isShortName hc)]
      rfl
    rw [lead_utf8_of_isShortName hc, leadOf, hlength]
  | name hc hname hrest => exact lead_utf8_of_isNameStart hc hname hrest

/-! ## Slices -/

/-- A slice that begins with the bytes of characters and is as long as they are is their text. -/
theorem fromUTF8?_slice {bytes tail : List UInt8} {cs : List Char} {slice : Slice}
    (hstart : bytes.drop slice.start = utf8 cs ++ tail)
    (hstop : slice.stop = slice.start + (utf8 cs).length) :
    String.fromUTF8? ⟨(slice.of bytes).toArray⟩ = some (String.ofList cs) := by
  rw [Slice.of, hstart, hstop, Nat.add_sub_cancel_left, List.take_left, fromUTF8?_utf8]

/-- The marks say where the segments are. -/
def Locates (bytes : List UInt8) (marks : List Mark) (segments : List Segment) : Prop :=
  List.Forall₂ (fun mark segment => mark.segment? bytes = some segment) marks segments

theorem Locates.mapM_eq {bytes : List UInt8} {marks : List Mark} {segments : List Segment}
    (h : Locates bytes marks segments) : marks.mapM (Mark.segment? bytes) = some segments := by
  induction h with
  | nil => rfl
  | cons h _ ih =>
    rw [List.mapM_cons, h, ih]
    rfl

/-! ## One position -/

namespace Scan

/-- A `$` that is no text ends the text in front of it, any other byte is text. -/
theorem next?_cons {bytes rest : List UInt8} {b : UInt8} {scan : Scan}
    (h : bytes.drop scan.pos = b :: rest) :
    scan.next? bytes =
      if b = dollar ∧ lead rest ≠ ⟨none, 0⟩ then some (scan.pass (lead rest))
      else some scan.skip := by
  unfold next?
  rw [h]
  cases rest with
  | nil => simp [lead]
  | cons c rest =>
    by_cases hb : b = dollar
    · have htext : ∀ found : Lead,
          (found.name.isNone && decide (found.width = 0)) = true ↔ found = ⟨none, 0⟩ := by
        rintro ⟨_ | name, width⟩ <;> simp
      simp only [hb, ne_eq, not_true, if_false, htext, true_and, ite_not]
    · simp [hb]

theorem finish_of_eq_nil {bytes : List UInt8} {scan : Scan} (h : bytes.drop scan.pos = []) :
    finish bytes scan = scan := by
  have hnone : scan.next? bytes = none := by
    unfold next?
    rw [h]
  rw [finish]
  split
  · rfl
  · simp_all

theorem finish_of_eq_some {bytes : List UInt8} {scan next : Scan}
    (h : scan.next? bytes = some next) : finish bytes scan = finish bytes next := by
  rw [finish]
  split <;> simp_all

/-- Bytes that are no `$` are passed over one by one. -/
theorem finish_of_append {bytes text rest : List UInt8} {scan : Scan}
    (h : bytes.drop scan.pos = text ++ rest) (htext : ∀ b ∈ text, b ≠ dollar) :
    finish bytes scan = finish bytes { scan with pos := scan.pos + text.length } := by
  induction text generalizing scan with
  | nil => rfl
  | cons b text ih =>
    rw [List.cons_append] at h
    have hskip : scan.next? bytes = some scan.skip := by
      rw [next?_cons h, if_neg fun hb => htext b List.mem_cons_self hb.1]
    have hdrop : bytes.drop scan.skip.pos = text ++ rest := by
      rw [skip, ← List.drop_drop, h]
      rfl
    rw [finish_of_eq_some hskip, ih hdrop fun c hc => htext c (List.mem_cons_of_mem b hc)]
    simp [skip, Nat.add_assoc, Nat.add_comm 1]

/-! ## Between two tokens -/

/-- What holds between two tokens. `done` are the segments that were found and `pending` the
characters of a literal that has not ended, both with the last one first, and `rest` is left to
read. -/
structure At (bytes : List UInt8) (scan : Scan) (done : List Segment) (pending rest : List Char) :
    Prop where
  drop_literalStart : bytes.drop scan.literalStart = utf8 pending.reverse ++ utf8 rest
  pos_eq : scan.pos = scan.literalStart + (utf8 pending.reverse).length
  marks : Locates bytes scan.marks done

namespace At

variable {bytes : List UInt8} {scan : Scan} {done : List Segment} {pending cs rest : List Char}
  {t : Token}

theorem start (cs : List Char) : At (utf8 cs) ⟨0, 0, []⟩ [] [] cs := ⟨rfl, rfl, .nil⟩

theorem drop_pos (h : At bytes scan done pending cs) : bytes.drop scan.pos = utf8 cs := by
  rw [h.pos_eq, ← List.drop_drop, h.drop_literalStart, List.drop_left]

/-- The text in front of the position is the literal that was pending. -/
theorem flush (h : At bytes scan done pending cs) :
    Locates bytes scan.flush (Expansion.flush pending done) := by
  unfold Scan.flush Expansion.flush
  cases pending with
  | nil =>
    -- nothing is pending, so the literal starts at the position and is not marked
    have hpos : ¬scan.literalStart < scan.pos := by
      rw [h.pos_eq]
      simp
    rw [if_neg hpos]
    exact h.marks
  | cons c pending =>
    have hne : utf8 (c :: pending).reverse ≠ [] := utf8_ne_nil (by simp)
    have hpos : scan.literalStart < scan.pos := by
      have := List.length_pos_iff.mpr hne
      rw [h.pos_eq]
      omega
    rw [if_pos hpos]
    refine .cons ?_ h.marks
    rw [Mark.segment?, fromUTF8?_slice h.drop_literalStart h.pos_eq]
    rfl

/-- The text goes on. -/
theorem char {c : Char} (h : At bytes scan done pending cs) (hstart : Starts cs (.char c) rest) :
    ∃ next, finish bytes scan = finish bytes next ∧ At bytes next done (c :: pending) rest := by
  obtain rfl : cs = c :: rest := hstart.eq_append
  have hdrop : bytes.drop scan.pos = String.utf8EncodeChar c ++ utf8 rest := h.drop_pos
  refine ⟨{ scan with pos := scan.pos + (String.utf8EncodeChar c).length }, ?_, ?_, ?_, h.marks⟩
  · -- a `$` that is text is passed over in one step, other characters byte by byte
    by_cases hc : c = '$'
    · subst hc
      have hlead : lead (utf8 rest) = ⟨none, 0⟩ := lead_utf8 hstart
      have hskip : scan.next? bytes = some scan.skip := by
        rw [next?_cons hdrop, if_neg fun hpass => hpass.2 hlead]
      exact finish_of_eq_some hskip
    · refine finish_of_append hdrop fun b hb => ?_
      exact of_decide_eq_false ((agrees_dollar c b hb).trans (decide_eq_false hc))
  · simp [h.drop_literalStart]
  · simp [h.pos_eq, Nat.add_assoc]

/-! ### Tokens that end a literal -/

theorem width_leadOf (ht : ∀ c, t ≠ .char c) : 1 + (leadOf t).width = (utf8 t.spelling).length := by
  cases t with
  | char c => exact absurd rfl (ht c)
  | emptyBraces | openBrace => rfl
  | braced name =>
    simp only [Token.spelling, leadOf, utf8_dollar, utf8_openBrace, utf8_append, utf8_closeBrace,
      utf8_nil, List.length_cons, List.length_append, List.length_nil]
    omega
  | bare name => simp only [Token.spelling, leadOf, utf8_dollar, List.length_cons, Nat.add_comm]

theorem leadOf_ne (ht : ∀ c, t ≠ .char c) : leadOf t ≠ ⟨none, 0⟩ := by
  cases t with
  | char c => exact absurd rfl (ht c)
  | emptyBraces | openBrace | braced _ | bare _ => simp [leadOf]

theorem exists_spelling_eq_dollar (ht : ∀ c, t ≠ .char c) :
    ∃ behind, t.spelling = '$' :: behind := by
  cases t with
  | char c => exact absurd rfl (ht c)
  | emptyBraces | openBrace | braced _ | bare _ => exact ⟨_, rfl⟩

theorem finish_eq_pass (h : At bytes scan done pending cs) (hstart : Starts cs t rest)
    (ht : ∀ c, t ≠ .char c) : finish bytes scan = finish bytes (scan.pass (leadOf t)) := by
  obtain ⟨behind, hbehind⟩ := exists_spelling_eq_dollar ht
  obtain rfl : cs = '$' :: (behind ++ rest) := by
    rw [hstart.eq_append, hbehind, List.cons_append]
  have hdrop : bytes.drop scan.pos = dollar :: utf8 (behind ++ rest) := h.drop_pos
  refine finish_of_eq_some ?_
  rw [next?_cons hdrop, lead_utf8 hstart, if_pos ⟨rfl, leadOf_ne ht⟩]

/-- A token that is no character is passed over whole. -/
theorem pass (h : At bytes scan done pending cs) (hstart : Starts cs t rest)
    (ht : ∀ c, t ≠ .char c) {found : List Segment}
    (hmarks : Locates bytes (scan.pass (leadOf t)).marks found) :
    At bytes (scan.pass (leadOf t)) found [] rest := by
  refine ⟨?_, rfl, hmarks⟩
  show bytes.drop (scan.pos + 1 + (leadOf t).width) = utf8 rest
  rw [Nat.add_assoc, width_leadOf ht, ← List.drop_drop, h.drop_pos, hstart.eq_append, utf8_append,
    List.drop_left]

/-- What holds behind a token. Its character goes on with the literal, or the literal has ended. -/
def Behind (bytes : List UInt8) (next : Scan) (done : List Segment) (pending rest : List Char) :
    Piece → Prop
  | .char c => At bytes next done (c :: pending) rest
  | .gap => At bytes next (Expansion.flush pending done) [] rest
  | .reference name =>
    At bytes next (.reference (String.ofList name) :: Expansion.flush pending done) [] rest

theorem step (h : At bytes scan done pending cs) (hstart : Starts cs t rest) :
    ∃ next, finish bytes scan = finish bytes next ∧
      Behind bytes next done pending rest t.piece := by
  cases t with
  | char c => exact h.char hstart
  | emptyBraces | openBrace =>
    exact ⟨_, h.finish_eq_pass hstart (by simp), h.pass hstart (by simp) h.flush⟩
  | braced name =>
    refine ⟨_, h.finish_eq_pass hstart (by simp), h.pass hstart (by simp) (.cons ?_ h.flush)⟩
    have hbytes : utf8 cs = dollar :: openBrace :: (utf8 name ++ closeBrace :: utf8 rest) := by
      rw [hstart.eq_append, Token.spelling, List.cons_append, List.cons_append, List.append_assoc,
        utf8_dollar, utf8_openBrace, utf8_append]
      rfl
    have hdrop : bytes.drop (scan.pos + 1 + 1) = utf8 name ++ closeBrace :: utf8 rest := by
      rw [Nat.add_assoc, ← List.drop_drop, h.drop_pos, hbytes]
      rfl
    rw [Mark.segment?, fromUTF8?_slice hdrop (by simp only; omega)]
    rfl
  | bare name =>
    refine ⟨_, h.finish_eq_pass hstart (by simp), h.pass hstart (by simp) (.cons ?_ h.flush)⟩
    have hbytes : utf8 cs = dollar :: (utf8 name ++ utf8 rest) := by
      rw [hstart.eq_append, Token.spelling, List.cons_append, utf8_dollar, utf8_append]
    have hdrop : bytes.drop (scan.pos + 1) = utf8 name ++ utf8 rest := by
      rw [← List.drop_drop, h.drop_pos, hbytes]
      rfl
    rw [Mark.segment?, fromUTF8?_slice hdrop rfl]
    rfl

theorem reverse_flush_append (pending : List Char) (done segments : List Segment) :
    (Expansion.flush pending done).reverse ++ segments =
      done.reverse ++ Expansion.flush pending segments := by
  unfold Expansion.flush
  cases pending <;> simp

/-- **From a position to the end, what is found is what the tokens come to.** -/
theorem run {ts : List Token} (h : At bytes scan done pending cs) (hts : Tokenises cs ts) :
    Locates bytes (finish bytes scan).flush.reverse
      (done.reverse ++ join pending (ts.map Token.piece)) := by
  -- what is found so far goes into the invariant, so the statement is about every position
  induction hts generalizing scan done pending with
  | nil =>
    have hend : bytes.drop scan.pos = [] := h.drop_pos
    rw [finish_of_eq_nil hend, List.map_nil, join, ← reverse_flush_append, List.append_nil]
    exact List.rel_reverse h.flush
  | @cons cs rest t ts hstart _ ih =>
    obtain ⟨next, hfinish, hnext⟩ := h.step hstart
    rw [hfinish, List.map_cons]
    cases hpiece : t.piece with
    | char c =>
      rw [hpiece] at hnext
      exact ih hnext
    | gap =>
      rw [hpiece] at hnext
      rw [join, ← reverse_flush_append]
      exact ih hnext
    | reference name =>
      rw [hpiece] at hnext
      rw [join, ← reverse_flush_append, List.append_cons, ← List.reverse_cons]
      exact ih hnext

end At

end Scan

/-! ## A whole value -/

/-- The scan finds the segments of the value, whatever characters it is made of. -/
theorem parse?_eq (value : String) : parse? value = some (parse value) := by
  obtain ⟨ts, hts⟩ := exists_tokenises value.toList
  have hmarks := (Scan.At.start value.toList).run hts
  rw [parse?, toList_toUTF8, parse_eq_of_tokenises hts]
  exact hmarks.mapM_eq

/--
**The segments of a value are those of the grammar.**

A value has exactly one tokenisation, and its tokens in order spell the value. The segments are what
these tokens come to, read from the characters as well as from the bytes, and none of them is empty.
-/
theorem parse_reads_grammar (value : String) :
    parse? value = some (parse value) ∧
    (∃ tokens, (∀ ts, Tokenises value.toList ts ↔ ts = tokens) ∧
      tokens.flatMap Token.spelling = value.toList ∧
      ∀ segments, Groups tokens segments ↔ segments = parse value) ∧
    ∀ segment ∈ parse value, segment.text ≠ "" := by
  obtain ⟨tokens, htokens⟩ := exists_tokenises value.toList
  refine ⟨parse?_eq value, ⟨tokens, ?_, htokens.spelling_eq, ?_⟩,
    fun segment => text_ne_empty_of_mem_parse⟩
  · refine fun ts => ⟨fun hts => hts.unique htokens, ?_⟩
    rintro rfl
    exact htokens
  · intro segments
    rw [groups_iff, parse_eq_of_tokenises htokens, eq_comm]

example : parse? "é$A-${}${b c}$1x$" = some
    [.literal "é", .reference "A", .literal "-", .reference "b c", .reference "1",
      .literal "x$"] := by
  cbv

end OrderedEnv.Expansion.Bytes
