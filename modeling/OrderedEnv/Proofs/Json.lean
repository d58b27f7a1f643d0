import OrderedEnv.Json.Parser
import OrderedEnv.Json.Printer

/-!
# Reading what was written

A string is read character by character in the way it was written (`Encodes`), and the digits of a
number are read as the number, with any text behind them that does not go on with it (`EndsNumber`).
So an object of numbers is read as it was written, entry by entry (`ofText?_objectText`).
-/

namespace OrderedEnv.Json

/-! ## Strings -/

/-- The three ways in which a character stands in a string. -/
inductive Encodes (c : Char) : List Char → Prop where
  /-- An escape of one letter. -/
  | letter {e : Char} (h : escapes.lookup e = some c) (hne : e ≠ 'u') : Encodes c ['\\', e]
  /-- An escape with the number of the character. -/
  | number (h : c.toNat < 0x20) : Encodes c ('\\' :: 'u' :: '0' :: '0' :: hexPair c.toNat)
  /-- The character itself. -/
  | plain (hquote : c ≠ '"') (hback : c ≠ '\\') (h : ¬c.toNat < 0x20) : Encodes c [c]

theorem encodes_encodeChar (c : Char) : Encodes c (encodeChar c) := by
  unfold encodeChar
  -- the seven characters with a letter of their own
  iterate 7
    split
    · next h =>
        subst h
        exact .letter rfl (by decide)
  split
  · next h => exact .number h
  · next hquote hback _ _ _ _ _ h => exact .plain hquote hback h

theorem hex4?_hexPair : ∀ n < 0x20,
    hex4? '0' '0' (Nat.digitChar (n / 16)) (Nat.digitChar (n % 16)) = some n := by
  decide

variable {c : Char} {written : List Char}

theorem Encodes.string?_append (h : Encodes c written) (done rest : List Char) :
    string? done (written ++ rest) = string? (written.reverse ++ done) rest := by
  cases h with
  | letter h hne => simp [string?, h, hne]
  | number h => simp [string?, hexPair, hex4?_hexPair _ h]
  | plain hquote hback h => simp [string?, hback, h]

theorem Encodes.decode?_append (h : Encodes c written) (rest : List Char) :
    decode? (written ++ rest) = (decode? rest).bind fun cs => some (c :: cs) := by
  cases h with
  | letter h hne => simp [decode?, h, hne]
  | number h =>
    have hsurrogate : ¬0xD800 ≤ c.toNat := by omega
    have hsurrogate' : ¬0xDC00 ≤ c.toNat := by omega
    simp [decode?, hexPair, hex4?_hexPair _ h, hsurrogate, hsurrogate', Char.ofNat_toNat]
  | plain hquote hback h => simp [decode?, hback]

theorem decode?_flatMap_encodeChar (cs : List Char) :
    decode? (cs.flatMap encodeChar) = some cs := by
  induction cs with
  | nil => rfl
  | cons c cs ih =>
    rw [List.flatMap_cons, (encodes_encodeChar c).decode?_append, ih]
    rfl

theorem string?_flatMap_encodeChar (cs done rest : List Char) :
    string? done (cs.flatMap encodeChar ++ '"' :: rest) =
      some (done.reverse ++ cs.flatMap encodeChar, rest) := by
  induction cs generalizing done with
  | nil => simp [string?]
  | cons c cs ih =>
    rw [List.flatMap_cons, List.append_assoc, (encodes_encodeChar c).string?_append, ih]
    simp

/-! ## Numbers -/

/-- A text that does not go on with a number that stands in front of it. -/
def EndsNumber (rest : List Char) : Prop :=
  ∀ c ∈ rest.head?, c.isDigit = false ∧ c ≠ '.' ∧ c ≠ 'e' ∧ c ≠ 'E'

theorem isDigit_of_mem_toDigits {n : Nat} {c : Char} (h : c ∈ Nat.toDigits 10 n) :
    c.isDigit = true :=
  Nat.isDigit_of_mem_toDigits (by decide) (by decide) h

/-- The digits of a number do not start with a useless zero. -/
theorem head?_toDigits_ne {n : Nat} (h : 0 < n) : (Nat.toDigits 10 n).head? ≠ some '0' := by
  induction n using Nat.strongRecOn with
  | ind n ih =>
    rw [Nat.toDigits_eq_if (by decide)]
    split
    · next hlt =>
      have hdigit : ∀ m < 10, 0 < m → Nat.digitChar m ≠ '0' := by decide
      simpa using hdigit n hlt h
    · have hhead := ih (n / 10) (by omega) (by omega)
      have hne : Nat.toDigits 10 (n / 10) ≠ [] := Nat.toDigits_ne_nil
      obtain ⟨c, cs, hcs⟩ := List.exists_cons_of_ne_nil hne
      rw [hcs] at hhead ⊢
      exact hhead

variable {rest : List Char}

theorem digits?_append {ds : List Char} (hds : ∀ c ∈ ds, c.isDigit = true) (hne : ds ≠ [])
    (hrest : EndsNumber rest) : digits? (ds ++ rest) = some (ds, rest) := by
  have htail : rest.takeWhile Char.isDigit = [] ∧ rest.dropWhile Char.isDigit = rest := by
    cases rest with
    | nil => exact ⟨rfl, rfl⟩
    | cons c rest => simp [(hrest c rfl).1]
  simp only [digits?, List.takeWhile_append_of_pos hds, List.dropWhile_append_of_pos hds, htail,
    List.append_nil]
  simp [hne]

theorem whole?_toDigits (n : Nat) (hrest : EndsNumber rest) :
    whole? (Nat.toDigits 10 n ++ rest) = some (Nat.toDigits 10 n, rest) := by
  rcases Nat.eq_zero_or_pos n with rfl | hpos
  · cases rest with
    | nil => rfl
    | cons c rest =>
      show (if Option.any Char.isDigit (some c) = true then _ else _) = _
      rw [if_neg (by simp [(hrest c rfl).1])]
      rfl
  · have hhead := head?_toDigits_ne hpos
    have hdigits := digits?_append (fun _ => isDigit_of_mem_toDigits)
      (Nat.toDigits_ne_nil (n := n) (b := 10)) hrest
    cases hcs : Nat.toDigits 10 n with
    | nil => exact absurd hcs Nat.toDigits_ne_nil
    | cons c cs =>
      rw [hcs] at hhead hdigits
      have hc : c ≠ '0' := by simpa using hhead
      rw [← hdigits]
      simp [whole?, hc]

theorem fraction?_of_endsNumber (hrest : EndsNumber rest) : fraction? rest = some ([], rest) := by
  cases rest with
  | nil => rfl
  | cons c rest => simp [fraction?, (hrest c rfl).2.1]

theorem exponent?_of_endsNumber (hrest : EndsNumber rest) : exponent? rest = some ([], rest) := by
  cases rest with
  | nil => rfl
  | cons c rest =>
    obtain ⟨-, -, he, hE⟩ := hrest c rfl
    simp [exponent?, he, hE]

theorem unsigned?_toDigits (n : Nat) (hrest : EndsNumber rest) :
    unsigned? (Nat.toDigits 10 n ++ rest) = some (Nat.toDigits 10 n, rest) := by
  simp [unsigned?, whole?_toDigits n hrest, fraction?_of_endsNumber hrest,
    exponent?_of_endsNumber hrest]

/-- A digit starts nothing but a number. -/
theorem value?_of_isDigit {c : Char} (hc : c.isDigit = true) (fuel : Nat) (cs : List Char) :
    value? (fuel + 1) (c :: cs) =
      (unsigned? (c :: cs)).map fun (written, rest) => (.number written, rest) := by
  have hne : ∀ d : Char, d.isDigit = false → c ≠ d := by
    rintro d hd rfl
    rw [hd] at hc
    cases hc
  have hspace : skipSpace (c :: cs) = c :: cs := by
    simp [skipSpace, isSpace, hne ' ' rfl, hne '\n' rfl, hne '\t' rfl, hne '\r' rfl]
  have hnumber : number? (c :: cs) = unsigned? (c :: cs) := by
    simp [number?, hne '-' rfl]
  rw [value?, hspace]
  split
  case h_7 => rw [hnumber]
  -- everything else starts with a character that is no digit
  all_goals
    next heq =>
      obtain ⟨rfl, -⟩ := List.cons.inj heq
      cases hc

/-- **The digits of a number are read as the number.** -/
theorem value?_toDigits (n fuel : Nat) (hrest : EndsNumber rest) :
    value? (fuel + 1) (Nat.toDigits 10 n ++ rest) =
      some (.number (Nat.toDigits 10 n), rest) := by
  have hunsigned := unsigned?_toDigits n hrest
  obtain ⟨c, cs, hcs⟩ := List.exists_cons_of_ne_nil (Nat.toDigits_ne_nil (n := n) (b := 10))
  have hc : c.isDigit = true := isDigit_of_mem_toDigits (n := n) (by simp [hcs])
  rw [hcs, List.cons_append] at hunsigned ⊢
  rw [value?_of_isDigit hc, hunsigned]
  rfl

theorem uint64?_toDigits (n : UInt64) :
    (Json.number (Nat.toDigits 10 n.toNat)).uint64? = some n := by
  have hall : (Nat.toDigits 10 n.toNat).all Char.isDigit = true :=
    List.all_eq_true.mpr fun _ => isDigit_of_mem_toDigits
  have hfits : n.toNat < UInt64.size := n.toNat_lt
  simp only [uint64?, if_pos hall, Nat.ofDigitChars_ten_toDigits, if_pos hfits, UInt64.ofNat_toNat]

/-! ## Objects of numbers -/

/-- An entry of an object as it is written. -/
def numberText (entry : String × Nat) : String × List Char := (entry.1, Nat.toDigits 10 entry.2)

/-- An entry of an object as it is read. -/
def numberEntry (entry : String × Nat) : List Char × Json :=
  (entry.1.toList.flatMap encodeChar, .number (Nat.toDigits 10 entry.2))

theorem skipSpace_of_not_isSpace {c : Char} (h : isSpace c = false) (cs : List Char) :
    skipSpace (c :: cs) = c :: cs := by
  simp [skipSpace, h]

theorem skipSpace_entryLine (entry : String × List Char) (rest : List Char) :
    skipSpace (entryLine entry ++ rest) =
      '"' :: (entry.1.toList.flatMap encodeChar ++ '"' :: ':' :: ' ' :: (entry.2 ++ rest)) := by
  simp [entryLine, encode, skipSpace, isSpace]

theorem value?_space (fuel : Nat) (cs : List Char) : value? fuel (' ' :: cs) = value? fuel cs := by
  cases fuel with
  | zero => rfl
  | succ fuel =>
    have hskip : skipSpace (' ' :: cs) = skipSpace cs := rfl
    rw [value?, value?, hskip]

/-- One entry is read, and then the object ends or another entry follows. -/
theorem entries?_entryLine {cs : List Char} (entry : String × Nat) (fuel : Nat)
    (done : List (List Char × Json)) (hrest : EndsNumber rest)
    (hcs : skipSpace cs = skipSpace (entryLine (numberText entry) ++ rest)) :
    entries? (fuel + 2) done cs =
      match skipSpace rest with
      | '\x7d' :: rest => some ((numberEntry entry :: done).reverse, rest)
      | ',' :: rest => entries? (fuel + 1) (numberEntry entry :: done) rest
      | _ => none := by
  have hvalue : value? (fuel + 1) (' ' :: (Nat.toDigits 10 entry.2 ++ rest)) =
      some (.number (Nat.toDigits 10 entry.2), rest) := by
    rw [value?_space, value?_toDigits entry.2 fuel hrest]
  have hcolon := skipSpace_of_not_isSpace (c := ':') rfl
  rw [entries?, hcs, skipSpace_entryLine]
  simp only [numberText, string?_flatMap_encodeChar, hcolon, hvalue]
  rfl

theorem endsNumber_line (c : Char) (hc : c = ',' ∨ c = '\n') (rest : List Char) :
    EndsNumber (c :: rest) := by
  rintro _ ⟨⟩
  rcases hc with rfl | rfl <;> decide

/-- The lines of an object behind its first one, and its end. -/
def furtherLines (entries : List (String × Nat)) : List Char :=
  (entries.flatMap fun entry => ',' :: entryLine (numberText entry)) ++ ['\n', '\x7d']

theorem furtherLines_cons (entry : String × Nat) (entries : List (String × Nat)) :
    furtherLines (entry :: entries) =
      ',' :: (entryLine (numberText entry) ++ furtherLines entries) := by
  simp [furtherLines]

theorem length_le_length_furtherLines (entries : List (String × Nat)) :
    entries.length ≤ (furtherLines entries).length := by
  induction entries with
  | nil => exact Nat.zero_le _
  | cons entry entries ih =>
    rw [furtherLines_cons, List.length_cons, List.length_cons, List.length_append]
    omega

/-- The lines of an object are read one by one, up to the brace at its end. -/
theorem entries?_entryLines {cs : List Char} (entry : String × Nat)
    (entries : List (String × Nat)) (fuel : Nat) (done : List (List Char × Json))
    (hcs : skipSpace cs = skipSpace (entryLine (numberText entry) ++ furtherLines entries)) :
    entries? (fuel + entries.length + 2) done cs =
      some (done.reverse ++ (entry :: entries).map numberEntry, []) := by
  induction entries generalizing entry done cs with
  | nil =>
    rw [entries?_entryLine entry _ done (endsNumber_line _ (.inr rfl) _) hcs]
    simp [skipSpace, isSpace]
  | cons next entries ih =>
    have hcomma := skipSpace_of_not_isSpace (c := ',') rfl
    have hnext := ih next (numberEntry entry :: done) rfl
    rw [furtherLines_cons] at hcs
    rw [List.reverse_cons, List.append_assoc] at hnext
    rw [entries?_entryLine entry _ done (endsNumber_line _ (.inl rfl) _) hcs, hcomma]
    exact hnext

/-- Behind its brace, an object that is not empty is read entry by entry. -/
theorem value?_object (entry : String × List Char) (fuel : Nat) (rest : List Char) :
    value? (fuel + 1) ('\x7b' :: (entryLine entry ++ rest)) =
      (entries? fuel [] (skipSpace (entryLine entry ++ rest))).map fun (entries, rest) =>
        (.object entries, rest) := by
  have hbrace := skipSpace_of_not_isSpace (c := '\x7b') rfl
  simp only [value?, hbrace, skipSpace_entryLine]
  rfl

/-- **An object of numbers is read as it was written.** -/
theorem ofText?_objectText (entries : List (String × Nat)) :
    ofText? (objectText (entries.map numberText)) = some (.object (entries.map numberEntry)) := by
  cases entries with
  | nil => rfl
  | cons entry entries =>
    have htext : (objectText ((entry :: entries).map numberText)).toList =
        '\x7b' :: (entryLine (numberText entry) ++ furtherLines entries) := by
      simp [objectText, furtherLines, List.flatMap_map]
    have hlength := length_le_length_furtherLines entries
    -- there are enough calls, since every entry is at least one character long
    obtain ⟨fuel, hfuel⟩ : ∃ fuel,
        2 * (objectText ((entry :: entries).map numberText)).length + 2 =
          fuel + entries.length + 2 + 1 := by
      rw [← String.length_toList, htext, List.length_cons, List.length_append]
      exact ⟨2 * (entryLine (numberText entry)).length + 2 * (furtherLines entries).length + 1 -
        entries.length, by omega⟩
    have hskip : skipSpace (skipSpace (entryLine (numberText entry) ++ furtherLines entries)) =
        skipSpace (entryLine (numberText entry) ++ furtherLines entries) := by
      rw [skipSpace_entryLine, skipSpace_of_not_isSpace rfl]
    rw [ofText?, htext, hfuel, value?_object, entries?_entryLines entry entries fuel [] hskip]
    rfl

end OrderedEnv.Json
