import Mathlib.Data.List.Basic
import OrderedEnv.Shell

/-!
# Literals of PowerShell

A verbatim string of PowerShell stands between single quotes, and two of them in a row stand for one
inside. There are five characters that PowerShell takes for a single quote, the straight one of ASCII
and four typographic ones, and any of them opens, doubles or closes a literal.

`quote` doubles the straight ones only. So a value is read back from its literal just if it holds no
typographic quote (`exportStatement_literal_iff`), and at a typographic quote that stands alone the
literal ends early (`literal?_quote_of_lone`). What follows in the value is code then.
-/

namespace OrderedEnv.Shell

/-! ## Single quotes -/

/-- The single quotes U+2018 to U+201B. -/
def isTypographicQuote (c : Char) : Bool := 0x2018 ≤ c.toNat && c.toNat ≤ 0x201B

/-- The characters that PowerShell takes for a single quote. -/
def isSingleQuote (c : Char) : Bool := c = '\'' || isTypographicQuote c

theorem isSingleQuote_of_ne {c : Char} (hc : c ≠ '\'') : isSingleQuote c = isTypographicQuote c := by
  rw [isSingleQuote, decide_eq_false hc, Bool.false_or]

/-! ## Reading a literal -/

/-- Reads behind the quote that opens a literal: what the literal stands for, and the text behind
the quote that closes it. Of two quotes in a row the second counts as text. -/
def literalBody? : List Char → Option (List Char × List Char)
  | [] => none
  | [c] => if isSingleQuote c then some ([], []) else none
  | c :: d :: cs =>
    if isSingleQuote c then
      if isSingleQuote d then (literalBody? cs).map fun (value, rest) => (d :: value, rest)
      else some ([], d :: cs)
    else (literalBody? (d :: cs)).map fun (value, rest) => (c :: value, rest)

/-- Reads a literal at the front of a text: what it stands for, and the text behind it. -/
def literal? : List Char → Option (List Char × List Char)
  | [] => none
  | c :: cs => if isSingleQuote c then literalBody? cs else none

variable {c d : Char} {cs value rest : List Char}

theorem literalBody?_of_text (hc : isSingleQuote c = false) (cs : List Char) :
    literalBody? (c :: cs) = (literalBody? cs).map fun (value, rest) => (c :: value, rest) := by
  cases cs with
  | nil => simp [literalBody?, hc]
  | cons d cs => simp [literalBody?, hc]

theorem literalBody?_of_pair (hc : isSingleQuote c = true) (hd : isSingleQuote d = true)
    (cs : List Char) : literalBody? (c :: d :: cs) =
      (literalBody? cs).map fun (value, rest) => (d :: value, rest) := by
  simp [literalBody?, hc, hd]

theorem literalBody?_of_close (hc : isSingleQuote c = true)
    (hcs : ∀ d ∈ cs.head?, isSingleQuote d = false) : literalBody? (c :: cs) = some ([], cs) := by
  cases cs with
  | nil => simp [literalBody?, hc]
  | cons d cs => simp [literalBody?, hc, hcs d rfl]

/-! ## What is written is read back -/

/-- A value without typographic quotes is read to its end. -/
theorem literalBody?_append (h : ∀ c ∈ value, isTypographicQuote c = false) (text : List Char) :
    literalBody? (value.flatMap powershellChar ++ text) =
      (literalBody? text).map fun (tail, rest) => (value ++ tail, rest) := by
  induction value with
  | nil => simp
  | cons c value ih =>
    obtain ⟨hc, hvalue⟩ := List.forall_mem_cons.mp h
    rw [List.flatMap_cons, List.append_assoc, powershellChar]
    by_cases hquote : c = '\''
    · rw [if_pos hquote, hquote, List.cons_append, List.singleton_append,
        literalBody?_of_pair (by decide) (by decide), ih hvalue, Option.map_map]
      rfl
    · rw [if_neg hquote, List.singleton_append,
        literalBody?_of_text (isSingleQuote_of_ne hquote ▸ hc), ih hvalue, Option.map_map]
      rfl

theorem toList_quote_powershell (value : String) :
    (powershell.quote value).toList = '\'' :: (value.toList.flatMap powershellChar ++ ['\'']) := by
  rw [quote, String.toList_ofList]
  rfl

theorem literal?_quote {value : String}
    (h : ∀ c ∈ value.toList, isTypographicQuote c = false) :
    literal? (powershell.quote value).toList = some (value.toList, []) := by
  have hclose : literalBody? ['\''] = some ([], []) := by decide
  rw [toList_quote_powershell, literal?, if_pos (by decide), literalBody?_append h, hclose]
  simp

/-- **At a typographic quote that stands alone the literal ends.** The rest of the value is read as
code, with the quote that should have closed the literal. -/
theorem literal?_quote_of_lone {value : String} {front back : List Char}
    (hvalue : value.toList = front ++ c :: back)
    (hfront : ∀ d ∈ front, isTypographicQuote d = false) (hc : isTypographicQuote c = true)
    (hne : back ≠ []) (hback : ∀ d ∈ back.head?, isSingleQuote d = false) :
    literal? (powershell.quote value).toList =
      some (front, back.flatMap powershellChar ++ ['\'']) := by
  have hquote : isSingleQuote c = true := by rw [isSingleQuote, hc, Bool.or_true]
  have hself : powershellChar c = [c] := by
    refine if_neg ?_
    rintro rfl
    exact absurd hc (by decide)
  have hhead : ∀ d ∈ (back.flatMap powershellChar ++ ['\'']).head?, isSingleQuote d = false := by
    obtain ⟨d, back, rfl⟩ := List.exists_cons_of_ne_nil hne
    have hd : d ≠ '\'' := by
      rintro rfl
      exact absurd (hback _ rfl) (by decide)
    rw [List.flatMap_cons, powershellChar, if_neg hd]
    exact hback
  rw [toList_quote_powershell, literal?, if_pos (by decide), hvalue, List.flatMap_append,
    List.flatMap_cons, hself, List.append_assoc, List.append_assoc, literalBody?_append hfront,
    List.singleton_append, literalBody?_of_close hquote hhead]
  simp

/-! ## Counting quotes -/

/-- Each quote that is read was written twice, and one more closes the literal. -/
theorem countP_literalBody? {text : List Char} (h : literalBody? text = some (value, rest)) :
    text.countP isSingleQuote =
      2 * value.countP isSingleQuote + 1 + rest.countP isSingleQuote := by
  fun_induction literalBody? text generalizing value with
  | case1 => cases h
  | case2 c hc =>
    obtain ⟨rfl, rfl⟩ := Prod.mk.inj (Option.some.inj h)
    simp [hc]
  | case3 => cases h
  | case4 c d cs hc hd ih =>
    obtain ⟨⟨tail, _⟩, hread, hpair⟩ := Option.map_eq_some_iff.mp h
    obtain ⟨rfl, rfl⟩ := Prod.mk.inj hpair
    have htail := ih hread
    simp only [List.countP_cons, hc, hd, if_true]
    omega
  | case5 c d cs hc hd =>
    obtain ⟨rfl, rfl⟩ := Prod.mk.inj (Option.some.inj h)
    simp only [List.countP_cons, hc, if_true, List.countP_nil]
    omega
  | case6 c d cs hc ih =>
    obtain ⟨⟨tail, _⟩, hread, hpair⟩ := Option.map_eq_some_iff.mp h
    obtain ⟨rfl, rfl⟩ := Prod.mk.inj hpair
    have htail := ih hread
    rw [List.countP_cons_of_neg hc, List.countP_cons_of_neg hc, htail]

/-- Only the typographic quotes of a value are not doubled. -/
theorem countP_flatMap_powershellChar (cs : List Char) :
    (cs.flatMap powershellChar).countP isSingleQuote + cs.countP isTypographicQuote =
      2 * cs.countP isSingleQuote := by
  induction cs with
  | nil => rfl
  | cons c cs ih =>
    rw [List.flatMap_cons, List.countP_append, powershellChar]
    by_cases hc : c = '\''
    · rw [if_pos hc, hc]
      simp only [List.countP_cons, List.countP_nil, show isSingleQuote '\'' = true by decide,
        show isTypographicQuote '\'' = false by decide, if_true, Bool.false_eq_true, if_false]
      omega
    · rw [if_neg hc]
      simp only [List.countP_cons, List.countP_nil, isSingleQuote_of_ne hc]
      omega

/--
**A value stays literal just if it holds no typographic quote.**

This is about the right side of the statement that sets a variable: it is one complete literal that
stands for the value.
-/
theorem exportStatement_literal_iff (key value : String) :
    ∃ side, powershell.exportStatement key value = "$env:" ++ key ++ " = " ++ side ∧
      (literal? side.toList = some (value.toList, []) ↔
        ∀ c ∈ value.toList, isTypographicQuote c = false) := by
  refine ⟨powershell.quote value, rfl, fun h => ?_, literal?_quote⟩
  rw [toList_quote_powershell, literal?, if_pos (by decide)] at h
  -- with the closing quote, twice the quotes of the value and one were written
  have hread := countP_literalBody? h
  have hwritten := countP_flatMap_powershellChar value.toList
  rw [List.countP_append, List.countP_singleton, if_pos (by decide), List.countP_nil] at hread
  have hnone : value.toList.countP isTypographicQuote = 0 := by omega
  exact fun c hc => Bool.eq_false_iff.mpr (List.countP_eq_zero.mp hnone c hc)

/-- A value that starts with a typographic quote is not read back. The literal is empty, and a
command follows it. -/
theorem exportStatement_not_literal :
    powershell.exportStatement "A" "’; date #" = "$env:A = '’; date #'" ∧
      literal? "'’; date #'".toList = some ([], "; date #'".toList) :=
  ⟨rfl, by decide⟩

end OrderedEnv.Shell
