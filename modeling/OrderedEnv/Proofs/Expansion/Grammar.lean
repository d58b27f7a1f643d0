import Mathlib.Data.List.TakeWhile
import OrderedEnv.Expansion

/-!
# The grammar of references

`Expansion.parse` cuts a value with `takeWhile` and `dropWhile` and joins what is left. Here the
grammar is said without them, as two relations.

* `Starts` says which token a text starts with, one rule for each shape. `Tokenises` reads a whole
  text by it, from left to right.
* `Groups` gathers tokens into segments: the longest stretches of characters, and the references.
  Tokens that are dropped separate stretches and leave nothing behind.

## What is proved

A text has exactly one tokenisation, its tokens in order spell the text, and `parse` gives exactly
the segments that are gathered from it. No segment is empty.
-/

namespace OrderedEnv.Expansion

/-! ## Characters -/

/-- A digit of ASCII. -/
def IsDigit (c : Char) : Prop := '0' ≤ c ∧ c ≤ '9'

/-- A character that is a whole name by itself. -/
def IsShortName (c : Char) : Prop := c ∈ ['*', '#', '$', '@', '!', '?', '-'] ∨ IsDigit c

/-- A character that a name without braces can start with: a letter of ASCII or `_`. -/
def IsNameStart (c : Char) : Prop := ('A' ≤ c ∧ c ≤ 'Z') ∨ ('a' ≤ c ∧ c ≤ 'z') ∨ c = '_'

/-- A character that a name without braces can go on with. -/
def IsNamePart (c : Char) : Prop := IsNameStart c ∨ IsDigit c

instance : DecidablePred IsDigit := fun _ => inferInstanceAs (Decidable (_ ∧ _))

instance : DecidablePred IsShortName := fun _ => inferInstanceAs (Decidable (_ ∨ _))

instance : DecidablePred IsNameStart := fun _ => inferInstanceAs (Decidable (_ ∨ _))

instance : DecidablePred IsNamePart := fun _ => inferInstanceAs (Decidable (_ ∨ _))

theorem isDigit_iff (c : Char) : c.isDigit = true ↔ IsDigit c := by
  simp only [Char.isDigit, IsDigit, Bool.and_eq_true, decide_eq_true_eq, ge_iff_le]
  exact Iff.rfl

theorem isSpecial_iff (c : Char) : isSpecial c = true ↔ IsShortName c := by
  simp [isSpecial, IsShortName, isDigit_iff, or_assoc]

theorem isNameChar_iff (c : Char) : isNameChar c = true ↔ IsNamePart c := by
  have hupper : c.isUpper = true ↔ 'A' ≤ c ∧ c ≤ 'Z' := by
    unfold Char.isUpper
    exact decide_eq_true_iff
  have hlower : c.isLower = true ↔ 'a' ≤ c ∧ c ≤ 'z' := by
    unfold Char.isLower
    rw [Bool.and_eq_true, decide_eq_true_iff, decide_eq_true_iff]
    exact Iff.rfl
  have hletter : c.isAlpha = true ↔ ('A' ≤ c ∧ c ≤ 'Z') ∨ ('a' ≤ c ∧ c ≤ 'z') := by
    unfold Char.isAlpha
    rw [Bool.or_eq_true, hupper, hlower]
  simp only [isNameChar, Char.isAlphanum, Bool.or_eq_true, decide_eq_true_eq, hletter, isDigit_iff,
    IsNamePart, IsNameStart, or_assoc]
  exact or_congr_right (or_congr_right or_comm)

/-- No name starts with a character that is a name by itself. -/
theorem IsNameStart.not_isShortName {c : Char} (h : IsNameStart c) : ¬IsShortName c := by
  rintro (hmem | ⟨hlow, hhigh⟩)
  · have hall : (['*', '#', '$', '@', '!', '?', '-'].all fun d => !decide (IsNameStart d)) = true :=
      rfl
    have hc := List.all_eq_true.mp hall c hmem
    simp [h] at hc
  · -- digits come before letters and `_`
    have hdigit : c.toNat ≤ 57 := hhigh
    rcases h with ⟨hA, -⟩ | ⟨ha, -⟩ | rfl
    · have : 65 ≤ c.toNat := hA
      omega
    · have : 97 ≤ c.toNat := ha
      omega
    · exact absurd hhigh (by decide)

theorem IsShortName.ne_openBrace {c : Char} (h : IsShortName c) : c ≠ '{' := by
  rintro rfl
  exact absurd h (by decide)

theorem IsNameStart.ne_openBrace {c : Char} (h : IsNameStart c) : c ≠ '{' := by
  rintro rfl
  exact absurd h (by decide)

theorem not_isNamePart {c : Char} (hshort : ¬IsShortName c) (hname : ¬IsNameStart c) :
    ¬IsNamePart c := by
  rintro (h | h)
  · exact hname h
  · exact hshort (.inr h)

/-! ## Tokens -/

/-- The smallest parts of a text. -/
inductive Token where
  /-- A character that stands for itself. -/
  | char (c : Char)
  /-- `${}`. -/
  | emptyBraces
  /-- `${` without a `}` behind it. -/
  | openBrace
  /-- A name in braces. -/
  | braced (name : List Char)
  /-- A name without braces. -/
  | bare (name : List Char)
  deriving DecidableEq, Repr

namespace Token

/-- The characters of a token. -/
def spelling : Token → List Char
  | char c => [c]
  | emptyBraces => ['$', '{', '}']
  | openBrace => ['$', '{']
  | braced name => '$' :: '{' :: (name ++ ['}'])
  | bare name => '$' :: name

/-- What a token contributes to a value. -/
def piece : Token → Piece
  | char c => .char c
  | emptyBraces => .gap
  | openBrace => .gap
  | braced name => .reference name
  | bare name => .reference name

end Token

/-- `Starts cs t rest` says that `cs` starts with the token `t` and that `rest` follows. -/
inductive Starts : List Char → Token → List Char → Prop
  /-- Any character but `$` stands for itself. -/
  | plain {c : Char} {rest : List Char} (hc : c ≠ '$') : Starts (c :: rest) (.char c) rest
  /-- So does a `$` at the end, -/
  | lastDollar : Starts ['$'] (.char '$') []
  /-- and one in front of a character that starts no name. -/
  | dollar {c : Char} {cs : List Char} (hbrace : c ≠ '{') (hshort : ¬IsShortName c)
      (hname : ¬IsNameStart c) : Starts ('$' :: c :: cs) (.char '$') (c :: cs)
  | emptyBraces {rest : List Char} : Starts ('$' :: '{' :: '}' :: rest) .emptyBraces rest
  /-- The braces end at the first `}`. -/
  | braced {name rest : List Char} (hne : name ≠ []) (hname : '}' ∉ name) :
      Starts ('$' :: '{' :: (name ++ '}' :: rest)) (.braced name) rest
  | openBrace {rest : List Char} (hrest : '}' ∉ rest) :
      Starts ('$' :: '{' :: rest) .openBrace rest
  | short {c : Char} {rest : List Char} (hc : IsShortName c) :
      Starts ('$' :: c :: rest) (.bare [c]) rest
  /-- A name goes on as long as it can. -/
  | name {c : Char} {name rest : List Char} (hc : IsNameStart c) (hname : ∀ x ∈ name, IsNamePart x)
      (hrest : ∀ x ∈ rest.head?, ¬IsNamePart x) :
      Starts ('$' :: c :: (name ++ rest)) (.bare (c :: name)) rest

/-- `Tokenises cs ts` says that `ts` are the tokens of `cs`, read from left to right. -/
inductive Tokenises : List Char → List Token → Prop
  | nil : Tokenises [] []
  | cons {cs rest : List Char} {t : Token} {ts : List Token} (h : Starts cs t rest)
      (hrest : Tokenises rest ts) : Tokenises cs (t :: ts)

/-- `Groups ts segments` says that `segments` are what the tokens `ts` come to. A literal takes all
the characters up to the next token of another kind. -/
inductive Groups : List Token → List Segment → Prop
  | nil : Groups [] []
  | literal {text : List Char} {ts : List Token} {segments : List Segment} (hne : text ≠ [])
      (hts : ∀ c, ts.head? ≠ some (.char c)) (h : Groups ts segments) :
      Groups (text.map .char ++ ts) (.literal (String.ofList text) :: segments)
  | emptyBraces {ts : List Token} {segments : List Segment} (h : Groups ts segments) :
      Groups (.emptyBraces :: ts) segments
  | openBrace {ts : List Token} {segments : List Segment} (h : Groups ts segments) :
      Groups (.openBrace :: ts) segments
  | braced {name : List Char} {ts : List Token} {segments : List Segment} (h : Groups ts segments) :
      Groups (.braced name :: ts) (.reference (String.ofList name) :: segments)
  | bare {name : List Char} {ts : List Token} {segments : List Segment} (h : Groups ts segments) :
      Groups (.bare name :: ts) (.reference (String.ofList name) :: segments)

/-! ## The text of a token -/

theorem Starts.eq_append {cs rest : List Char} {t : Token} (h : Starts cs t rest) :
    cs = t.spelling ++ rest := by
  cases h <;> simp [Token.spelling]

theorem Token.spelling_ne_nil (t : Token) : t.spelling ≠ [] := by
  cases t <;> simp [spelling]

theorem Starts.length_lt {cs rest : List Char} {t : Token} (h : Starts cs t rest) :
    rest.length < cs.length := by
  have hpos := List.length_pos_iff.mpr t.spelling_ne_nil
  rw [h.eq_append, List.length_append]
  omega

/-- Every character belongs to exactly one token: the tokens in order spell the text. -/
theorem Tokenises.spelling_eq {cs : List Char} {ts : List Token} (h : Tokenises cs ts) :
    ts.flatMap Token.spelling = cs := by
  induction h with
  | nil => rfl
  | cons h _ ih => rw [List.flatMap_cons, ih, ← h.eq_append]

/-! ## Every text has tokens -/

private theorem exists_name (cs : List Char) :
    ∃ name rest, cs = name ++ rest ∧ (∀ x ∈ name, IsNamePart x) ∧
      ∀ x ∈ rest.head?, ¬IsNamePart x := by
  refine ⟨cs.takeWhile isNameChar, cs.dropWhile isNameChar,
    List.takeWhile_append_dropWhile.symm, fun x hx => ?_, fun x hx hpart => ?_⟩
  · exact (isNameChar_iff x).mp (List.mem_takeWhile_imp hx)
  · have hhead := List.head?_dropWhile_not isNameChar cs
    rw [Option.mem_def.mp hx] at hhead
    exact Bool.false_ne_true (hhead.symm.trans ((isNameChar_iff x).mpr hpart))

private theorem exists_starts_brace (cs : List Char) :
    ∃ t rest, Starts ('$' :: '{' :: cs) t rest := by
  by_cases hclose : '}' ∈ cs
  · obtain ⟨name, rest, rfl, hname⟩ := List.eq_append_cons_of_mem hclose
    cases name with
    | nil => exact ⟨_, _, .emptyBraces⟩
    | cons c name => exact ⟨_, _, .braced (List.cons_ne_nil c name) hname⟩
  · exact ⟨_, _, .openBrace hclose⟩

/-- The rules leave no text out. -/
theorem exists_starts {cs : List Char} (hne : cs ≠ []) : ∃ t rest, Starts cs t rest := by
  obtain ⟨c, cs, rfl⟩ := List.exists_cons_of_ne_nil hne
  by_cases hdollar : c = '$'
  · -- the rules for a `$` are told apart by the character behind it
    subst hdollar
    rcases cs with _ | ⟨c, cs⟩
    · exact ⟨_, _, .lastDollar⟩
    · by_cases hbrace : c = '{'
      · subst hbrace
        exact exists_starts_brace cs
      · by_cases hshort : IsShortName c
        · exact ⟨_, _, .short hshort⟩
        · by_cases hstart : IsNameStart c
          · obtain ⟨name, rest, rfl, hname, hrest⟩ := exists_name cs
            exact ⟨_, _, .name hstart hname hrest⟩
          · exact ⟨_, _, .dollar hbrace hshort hstart⟩
  · exact ⟨_, _, .plain hdollar⟩

theorem exists_tokenises (cs : List Char) : ∃ ts, Tokenises cs ts := by
  by_cases hnil : cs = []
  · exact ⟨[], hnil ▸ .nil⟩
  · -- a token takes at least one character, so the rest is shorter
    obtain ⟨t, rest, h⟩ := exists_starts hnil
    obtain ⟨ts, hts⟩ := exists_tokenises rest
    exact ⟨t :: ts, .cons h hts⟩
termination_by cs.length
decreasing_by exact h.length_lt

/-! ## What stands behind a `$`, by shape -/

theorem bne_closeBrace_of_not_mem {cs : List Char} (hcs : '}' ∉ cs) :
    ∀ c ∈ cs, (c != '}') = true :=
  fun _ hc => bne_iff_ne.mpr fun h => hcs (h ▸ hc)

theorem braced_append_close {name : List Char} (hname : '}' ∉ name) (rest : List Char) :
    braced (name ++ '}' :: rest) =
      if name = [] then .dropped rest else .reference name rest := by
  have hall := bne_closeBrace_of_not_mem hname
  have htake : (name ++ '}' :: rest).takeWhile (· != '}') = name := by
    rw [List.takeWhile_append_of_pos hall]
    simp
  have hdrop : (name ++ '}' :: rest).dropWhile (· != '}') = '}' :: rest := by
    rw [List.dropWhile_append_of_pos hall]
    simp
  unfold braced
  rw [htake, hdrop]
  cases name <;> rfl

theorem braced_of_not_mem {cs : List Char} (hcs : '}' ∉ cs) : braced cs = .dropped cs := by
  have hdrop : cs.dropWhile (· != '}') = [] :=
    List.dropWhile_eq_nil_iff.mpr (bne_closeBrace_of_not_mem hcs)
  unfold braced
  rw [hdrop]

theorem lead_openBrace (cs : List Char) : lead ('{' :: cs) = braced cs := by
  rw [lead, if_pos rfl]

theorem lead_of_isShortName {c : Char} (h : IsShortName c) (cs : List Char) :
    lead (c :: cs) = .reference [c] cs := by
  rw [lead, if_neg h.ne_openBrace, if_pos ((isSpecial_iff c).mpr h)]

theorem lead_of_isNameStart {c : Char} (hc : IsNameStart c) {name rest : List Char}
    (hname : ∀ x ∈ name, IsNamePart x) (hrest : ∀ x ∈ rest.head?, ¬IsNamePart x) :
    lead (c :: (name ++ rest)) = .reference (c :: name) rest := by
  have hall : ∀ x ∈ name, isNameChar x = true := fun x hx => (isNameChar_iff x).mpr (hname x hx)
  have hstop : rest.takeWhile isNameChar = [] ∧ rest.dropWhile isNameChar = rest := by
    cases rest with
    | nil => exact ⟨rfl, rfl⟩
    | cons x rest =>
      have hx : ¬isNameChar x = true := fun h => hrest x rfl ((isNameChar_iff x).mp h)
      exact ⟨List.takeWhile_cons_of_neg hx, List.dropWhile_cons_of_neg hx⟩
  rw [lead, if_neg hc.ne_openBrace, if_neg (mt (isSpecial_iff c).mp hc.not_isShortName),
    if_pos ((isNameChar_iff c).mpr (.inl hc)), List.takeWhile_append_of_pos hall,
    List.dropWhile_append_of_pos hall, hstop.1, hstop.2, List.append_nil]

theorem lead_eq_text {c : Char} (hbrace : c ≠ '{') (hshort : ¬IsShortName c)
    (hname : ¬IsNameStart c) (cs : List Char) : lead (c :: cs) = .text := by
  rw [lead, if_neg hbrace, if_neg (mt (isSpecial_iff c).mp hshort),
    if_neg (mt (isNameChar_iff c).mp (not_isNamePart hshort hname))]

/-! ## Tokens and pieces -/

theorem pieces_cons {c : Char} (hc : c ≠ '$') (cs : List Char) :
    pieces (c :: cs) = .char c :: pieces cs := by
  rw [pieces, if_neg hc]

theorem pieces_of_text {cs : List Char} (h : lead cs = .text) :
    pieces ('$' :: cs) = .char '$' :: pieces cs := by
  rw [pieces, if_pos rfl]
  split <;> simp_all

theorem pieces_of_dropped {cs rest : List Char} (h : lead cs = .dropped rest) :
    pieces ('$' :: cs) = .gap :: pieces rest := by
  rw [pieces, if_pos rfl]
  split <;> simp_all

theorem pieces_of_reference {cs name rest : List Char} (h : lead cs = .reference name rest) :
    pieces ('$' :: cs) = .reference name :: pieces rest := by
  rw [pieces, if_pos rfl]
  split <;> simp_all

/-- One token is one piece. -/
theorem Starts.pieces_eq {cs rest : List Char} {t : Token} (h : Starts cs t rest) :
    pieces cs = t.piece :: pieces rest := by
  cases h with
  | plain hc => exact pieces_cons hc rest
  | lastDollar => exact pieces_of_text rfl
  | dollar hbrace hshort hname => exact pieces_of_text (lead_eq_text hbrace hshort hname _)
  | emptyBraces =>
    refine pieces_of_dropped ?_
    rw [lead_openBrace]
    exact braced_append_close List.not_mem_nil rest
  | braced hne hname =>
    refine pieces_of_reference ?_
    rw [lead_openBrace, braced_append_close hname, if_neg hne]
  | openBrace hrest =>
    refine pieces_of_dropped ?_
    rw [lead_openBrace, braced_of_not_mem hrest]
  | short hc => exact pieces_of_reference (lead_of_isShortName hc rest)
  | name hc hname hrest => exact pieces_of_reference (lead_of_isNameStart hc hname hrest)

theorem Tokenises.pieces_eq {cs : List Char} {ts : List Token} (h : Tokenises cs ts) :
    pieces cs = ts.map Token.piece := by
  induction h with
  | nil => rw [pieces, List.map_nil]
  | cons h _ ih => rw [h.pieces_eq, ih, List.map_cons]

/-! ## A text has only one tokenisation -/

theorem Starts.not_closeBrace_mem {cs rest : List Char} (h : Starts cs .openBrace rest) :
    '}' ∉ rest := by
  cases h with
  | openBrace hrest => exact hrest

theorem Starts.exists_bare_eq_cons {cs name rest : List Char} (h : Starts cs (.bare name) rest) :
    ∃ c tail, name = c :: tail ∧ c ≠ '{' := by
  cases h with
  | short hc => exact ⟨_, _, rfl, hc.ne_openBrace⟩
  | name hc _ _ => exact ⟨_, _, rfl, hc.ne_openBrace⟩

theorem Starts.not_openBrace {cs rest rest' : List Char} (h : Starts cs .emptyBraces rest) :
    ¬Starts cs .openBrace rest' := by
  intro h'
  have htext : '$' :: '{' :: '}' :: rest = '$' :: '{' :: rest' :=
    h.eq_append.symm.trans h'.eq_append
  injection htext with _ htext
  injection htext with _ htext
  exact h'.not_closeBrace_mem (htext ▸ List.mem_cons_self)

theorem Starts.not_bare {cs name name' rest rest' : List Char} (h : Starts cs (.braced name) rest) :
    ¬Starts cs (.bare name') rest' := by
  intro h'
  obtain ⟨c, tail, rfl, hc⟩ := h'.exists_bare_eq_cons
  have htext := h.eq_append.symm.trans h'.eq_append
  injection htext with _ htext
  injection htext with hbrace _
  exact hc hbrace.symm

/-- The piece and the text tell a token. -/
theorem Starts.unique {cs rest rest' : List Char} {t t' : Token} (h : Starts cs t rest)
    (h' : Starts cs t' rest') : t = t' ∧ rest = rest' := by
  have hpiece : t.piece = t'.piece := by
    have heq := h.pieces_eq.symm.trans h'.pieces_eq
    exact (List.cons.inj heq).1
  have htoken : t = t' := by
    -- only the two kinds of dropped syntax, and the two spellings of a name, share their pieces
    cases t <;> cases t' <;> simp only [Token.piece, reduceCtorEq, Piece.char.injEq,
      Piece.reference.injEq] at hpiece
    case emptyBraces.openBrace => exact absurd h' h.not_openBrace
    case openBrace.emptyBraces => exact absurd h h'.not_openBrace
    case braced.bare => exact absurd h' h.not_bare
    case bare.braced => exact absurd h h'.not_bare
    all_goals simp [hpiece]
  subst htoken
  exact ⟨rfl, List.append_cancel_left (h.eq_append.symm.trans h'.eq_append)⟩

theorem Tokenises.unique {cs : List Char} {ts ts' : List Token} (h : Tokenises cs ts)
    (h' : Tokenises cs ts') : ts = ts' := by
  induction h generalizing ts' with
  | nil =>
    cases h' with
    | nil => rfl
    | cons h _ => cases h
  | cons h _ ih =>
    cases h' with
    | nil => cases h
    | cons h' hrest' =>
      obtain ⟨rfl, rfl⟩ := h.unique h'
      rw [ih hrest']

/-! ## Segments -/

theorem join_text (pending text : List Char) (ps : List Piece) :
    join pending (text.map .char ++ ps) = join (text.reverse ++ pending) ps := by
  induction text generalizing pending with
  | nil => rfl
  | cons c text ih =>
    rw [List.map_cons, List.cons_append, join, ih, List.reverse_cons, List.append_assoc,
      List.singleton_append]

/-- Text ends in front of a token that is no character. -/
theorem join_eq_flush {ts : List Token} (hts : ∀ c, ts.head? ≠ some (.char c))
    (pending : List Char) :
    join pending (ts.map Token.piece) = flush pending (join [] (ts.map Token.piece)) := by
  cases ts with
  | nil => rfl
  | cons t ts =>
    cases t with
    | char c => exact absurd rfl (hts c)
    | emptyBraces | openBrace | braced _ | bare _ => rfl

theorem Groups.join_eq {ts : List Token} {segments : List Segment} (h : Groups ts segments) :
    join [] (ts.map Token.piece) = segments := by
  induction h with
  | nil => rfl
  | @literal text ts segments hne hts _ ih =>
    have htext : (text.map Token.char).map Token.piece = text.map Piece.char := by
      rw [List.map_map]
      rfl
    have hpending : ¬(text.reverse ++ []).isEmpty = true := by simpa using hne
    rw [List.map_append, htext, join_text, join_eq_flush hts, ih, flush, if_neg hpending,
      List.append_nil, List.reverse_reverse]
  | emptyBraces _ ih | openBrace _ ih => exact ih
  | braced _ ih | bare _ ih => rw [List.map_cons, Token.piece, join, ih]; rfl

/-- Pending characters, last one first, in front of tokens that have been gathered. -/
theorem Groups.flush {ts : List Token} {segments : List Segment} (h : Groups ts segments)
    (hts : ∀ c, ts.head? ≠ some (.char c)) (pending : List Char) :
    Groups (pending.reverse.map .char ++ ts) (flush pending segments) := by
  cases pending with
  | nil => exact h
  | cons c pending => exact .literal (by simp) hts h

theorem groups_join (pending : List Char) (ts : List Token) :
    Groups (pending.reverse.map .char ++ ts) (join pending (ts.map Token.piece)) := by
  induction ts generalizing pending with
  | nil => exact Groups.nil.flush (by simp) pending
  | cons t ts ih =>
    -- a character joins those that are pending, and any other token ends them
    cases t with
    | char c => simpa [Token.piece, join] using ih (c :: pending)
    | emptyBraces => exact (Groups.emptyBraces (ih [])).flush (by simp) pending
    | openBrace => exact (Groups.openBrace (ih [])).flush (by simp) pending
    | braced name => exact (Groups.braced (ih [])).flush (by simp) pending
    | bare name => exact (Groups.bare (ih [])).flush (by simp) pending

theorem groups_iff (ts : List Token) (segments : List Segment) :
    Groups ts segments ↔ join [] (ts.map Token.piece) = segments := by
  refine ⟨Groups.join_eq, ?_⟩
  rintro rfl
  exact groups_join [] ts

/-! ## No segment is empty -/

/-- The text of a literal, or the name of a reference. -/
def Segment.text : Segment → String
  | .literal text => text
  | .reference name => name

theorem Starts.piece_ne {cs rest : List Char} {t : Token} (h : Starts cs t rest) :
    t.piece ≠ .reference [] := by
  cases h with
  | plain _ | lastDollar | dollar _ _ _ | emptyBraces | openBrace _ => exact Piece.noConfusion
  | braced hne _ => exact fun heq => hne (Piece.reference.inj heq)
  | short _ | name _ _ _ => exact fun heq => List.cons_ne_nil _ _ (Piece.reference.inj heq)

theorem Tokenises.not_mem {cs : List Char} {ts : List Token} (h : Tokenises cs ts) :
    Piece.reference [] ∉ ts.map Token.piece := by
  induction h with
  | nil => exact List.not_mem_nil
  | cons h _ ih =>
    rw [List.map_cons, List.mem_cons, not_or]
    exact ⟨h.piece_ne.symm, ih⟩

theorem ofList_ne_empty {cs : List Char} (h : cs ≠ []) : String.ofList cs ≠ "" := by
  intro heq
  exact h (by simpa using congrArg String.toList heq)

theorem Groups.text_ne_empty {ts : List Token} {segments : List Segment} (h : Groups ts segments)
    (hts : Piece.reference [] ∉ ts.map Token.piece) : ∀ segment ∈ segments, segment.text ≠ "" := by
  induction h with
  | nil => exact fun _ hmem => absurd hmem List.not_mem_nil
  | literal hne _ _ ih =>
    rw [List.map_append, List.mem_append, not_or] at hts
    rw [List.forall_mem_cons]
    exact ⟨ofList_ne_empty hne, ih hts.2⟩
  | emptyBraces _ ih | openBrace _ ih => exact ih (mt (List.mem_cons_of_mem _) hts)
  | @braced name _ _ _ ih | @bare name _ _ _ ih =>
    rw [List.map_cons, List.mem_cons, not_or] at hts
    rw [List.forall_mem_cons]
    refine ⟨ofList_ne_empty ?_, ih hts.2⟩
    rintro rfl
    exact hts.1 rfl

/-! ## The segments of a value -/

theorem parse_eq_of_tokenises {value : String} {ts : List Token} (h : Tokenises value.toList ts) :
    parse value = join [] (ts.map Token.piece) := by
  rw [parse, h.pieces_eq]

/-- No segment of a value is empty. -/
theorem text_ne_empty_of_mem_parse {value : String} {segment : Segment}
    (h : segment ∈ parse value) : segment.text ≠ "" := by
  obtain ⟨ts, hts⟩ := exists_tokenises value.toList
  rw [parse_eq_of_tokenises hts] at h
  exact (groups_join [] ts).text_ne_empty hts.not_mem segment h

end OrderedEnv.Expansion
