import OrderedEnv.Proofs.Expansion.Contribution

/-!
# Texts one after the other

What two texts expand to in sequence is what the two of them expand to, as long as no token grows
over the seam. Three kinds of tokens can: an open brace, which looks for its `}` as far as the text
goes, a `$` at the end, which takes its meaning from what follows, and a name without braces, which
goes on as long as it can. Every other token is the same in front of any text (`Starts.append`).
-/

namespace OrderedEnv.Expansion

/-- The last token is a name without braces that more characters would make longer. -/
def EndsInName (ts : List Token) : Prop :=
  ∃ c name, ts.getLast? = some (.bare (c :: name)) ∧ IsNameStart c

/-! ## The tokens of two texts -/

variable {cs ds rest : List Char} {t : Token} {ts us : List Token}

theorem Tokenises.eq_nil (h : Tokenises [] ts) : ts = [] := by
  cases h with
  | nil => rfl
  | cons h _ => cases h

/-- A token that is not at the end of its text stays the same when the text goes on. At the end, it
depends on the token and on what comes next. -/
theorem Starts.append (h : Starts cs t rest) (hopen : t ≠ .openBrace)
    (hdollar : rest = [] → t ≠ .char '$')
    (hname : rest = [] → EndsInName [t] → ∀ x ∈ ds.head?, ¬IsNamePart x) :
    Starts (cs ++ ds) t (rest ++ ds) := by
  cases h with
  | plain hc => exact .plain hc
  | lastDollar => exact absurd rfl (hdollar rfl)
  | dollar hbrace hshort hstart => exact .dollar hbrace hshort hstart
  | emptyBraces => exact .emptyBraces
  | @braced name rest hne hclose =>
    have htext : ('$' :: '{' :: (name ++ '}' :: rest)) ++ ds =
        '$' :: '{' :: (name ++ '}' :: (rest ++ ds)) := by simp
    rw [htext]
    exact .braced hne hclose
  | openBrace _ => exact absurd rfl hopen
  | short hc => exact .short hc
  | @name c name rest hc hpart hrest =>
    have htext : ('$' :: c :: (name ++ rest)) ++ ds = '$' :: c :: (name ++ (rest ++ ds)) := by simp
    rw [htext]
    refine .name hc hpart ?_
    -- the name ends in front of what follows it in its own text, or else in front of the other
    cases rest with
    | nil => exact hname rfl ⟨c, name, rfl, hc⟩
    | cons x rest => exact hrest

theorem Tokenises.append (h : Tokenises cs ts) (h' : Tokenises ds us) (hopen : .openBrace ∉ ts)
    (hdollar : ts.getLast? ≠ some (.char '$'))
    (hname : EndsInName ts → ∀ x ∈ ds.head?, ¬IsNamePart x) :
    Tokenises (cs ++ ds) (ts ++ us) := by
  induction h with
  | nil => exact h'
  | @cons cs rest t ts hstart hrest ih =>
    obtain ⟨hfirst, hopen⟩ := not_or.mp (mt List.mem_cons.mpr hopen)
    -- the token is the last one just if its text ends behind it
    have hlast : rest = [] → (t :: ts).getLast? = some t := by
      rintro rfl
      rw [hrest.eq_nil]
      rfl
    have htail : ∀ u, ts.getLast? = some u → (t :: ts).getLast? = some u := by
      intro u hu
      rw [List.getLast?_cons, hu]
      rfl
    refine .cons (hstart.append (Ne.symm hfirst) ?_ ?_) (ih hopen ?_ ?_)
    · rintro hnil rfl
      exact hdollar (hlast hnil)
    · rintro hnil ⟨c, name, ht, hc⟩
      exact hname ⟨c, name, (hlast hnil).trans ht, hc⟩
    · exact fun hu => hdollar (htail _ hu)
    · rintro ⟨c, name, hu, hc⟩
      exact hname ⟨c, name, htail _ hu, hc⟩

/-! ## What two texts expand to -/

/-- Tokens that stay what they are contribute what they did. -/
theorem expand_append_of_tokenises {a b : String} (h : Tokenises a.toList ts)
    (h' : Tokenises b.toList us) (happend : Tokenises (a ++ b).toList (ts ++ us))
    (lookup : String → Option Binding) :
    expand lookup (a ++ b) = expand lookup a ++ expand lookup b := by
  rw [expand_eq_join, expand_eq_join, expand_eq_join, h.pieces_eq, h'.pieces_eq,
    happend.pieces_eq, List.map_append, List.map_append, Binding.join_append]

/-- The text of a reference in braces. -/
def inBraces (name : String) : String := String.ofList (Token.braced name.toList).spelling

/-- A reference in braces is replaced, and what follows it is read on its own. -/
theorem expand_inBraces_append {name : String} (hne : name ≠ "") (hclose : '}' ∉ name.toList)
    (b : String) (lookup : String → Option Binding) :
    expand lookup (inBraces name ++ b) =
      (lookup name).getD ⟨"", false⟩ ++ expand lookup b := by
  have htext : (inBraces name ++ b).toList = '$' :: '{' :: (name.toList ++ '}' :: b.toList) := by
    simp [inBraces, Token.spelling]
  have hnil : name.toList ≠ [] := fun h => hne (String.toList_eq_nil_iff.mp h)
  rw [expand_eq_join, htext, (Starts.braced hnil hclose).pieces_eq, List.map_cons,
    Binding.join_cons, ← expand_eq_join]
  simp only [Token.piece, Piece.resolve, Segment.resolve, String.ofList_toList]

/--
**Texts in sequence expand to what they expand to one by one.**

The first text must not end in the middle of something: it holds no open brace that is never closed,
its last token is no `$` that stands for itself, and the second text does not go on with a name that
the first ends in. A reference in braces may stand between the two in any case.
-/
theorem expand_append {a : String} (h : Tokenises a.toList ts) (hopen : .openBrace ∉ ts)
    (hdollar : ts.getLast? ≠ some (.char '$')) (lookup : String → Option Binding) :
    (∀ b : String, (EndsInName ts → ∀ x ∈ b.toList.head?, ¬IsNamePart x) →
      expand lookup (a ++ b) = expand lookup a ++ expand lookup b) ∧
    ∀ name b : String, name ≠ "" → '}' ∉ name.toList →
      expand lookup (a ++ inBraces name ++ b) =
        expand lookup a ++ (lookup name).getD ⟨"", false⟩ ++ expand lookup b := by
  have hall (b : String) (hname : EndsInName ts → ∀ x ∈ b.toList.head?, ¬IsNamePart x) :
      expand lookup (a ++ b) = expand lookup a ++ expand lookup b := by
    obtain ⟨us, hb⟩ := exists_tokenises b.toList
    have happend := h.append hb hopen hdollar hname
    rw [← String.toList_append] at happend
    exact expand_append_of_tokenises h hb happend lookup
  refine ⟨hall, fun name b hne hclose => ?_⟩
  have hseam : ∀ x ∈ (inBraces name ++ b).toList.head?, ¬IsNamePart x := by
    have hhead : (inBraces name ++ b).toList.head? = some '$' := by
      simp [inBraces, Token.spelling]
    rw [hhead]
    rintro _ ⟨⟩
    decide
  rw [String.append_assoc, hall _ fun _ => hseam, expand_inBraces_append hne hclose,
    Binding.append_assoc]

/-- A text that ends in a name, in front of a text that starts with a `$` and in front of a
reference. -/
theorem expand_append_path :
    let lookup : String → Option Binding := fun name =>
      if name = "HOME" then some ⟨"/root", false⟩ else if name = "B" then some ⟨"$B", true⟩ else none
    let ts : List Token := [.braced ['H', 'O', 'M', 'E'], .char '/', .emptyBraces, .bare ['B']]
    Tokenises "${HOME}/${}$B".toList ts ∧ .openBrace ∉ ts ∧ ts.getLast? ≠ some (.char '$') ∧
      EndsInName ts ∧
      expand lookup ("${HOME}/${}$B" ++ "$1/bin") =
        expand lookup "${HOME}/${}$B" ++ expand lookup "$1/bin" ∧
      expand lookup ("${HOME}/${}$B" ++ inBraces "HOME" ++ "BC$") =
        expand lookup "${HOME}/${}$B" ++ ⟨"/root", false⟩ ++ expand lookup "BC$" := by
  intro lookup ts
  have h : Tokenises "${HOME}/${}$B".toList ts :=
    .cons (@Starts.braced ['H', 'O', 'M', 'E'] _ (by decide) (by decide)) <|
      .cons (.plain (by decide)) <| .cons .emptyBraces <|
        .cons (@Starts.name 'B' [] [] (by decide) (by simp) (by simp)) .nil
  have hopen : Token.openBrace ∉ ts := by decide
  have hdollar : ts.getLast? ≠ some (.char '$') := by decide
  have hseam : ∀ x ∈ "$1/bin".toList.head?, ¬IsNamePart x := by
    rintro _ ⟨⟩
    decide
  obtain ⟨hall, hbraced⟩ := expand_append h hopen hdollar lookup
  exact ⟨h, hopen, hdollar, ⟨'B', [], rfl, by decide⟩, hall _ fun _ => hseam,
    hbraced "HOME" "BC$" (by decide) (by decide)⟩

end OrderedEnv.Expansion
