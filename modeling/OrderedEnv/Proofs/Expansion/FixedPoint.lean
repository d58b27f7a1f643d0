import OrderedEnv.Proofs.Expansion.Contribution

/-!
# Expanding twice

Text that comes from a variable is never read again, so a value may expand to a text that holds
references. It does not if no `$` is put in: then nothing is left to expand, and the same text comes
out a second time, whatever the variables hold by then.

Such a text may still hold a `$`. What has to be shown is that it means no more there than it did in
the value. A `$` that stands for itself keeps the character that made it do so right behind it, and
no other `$` gets into the result (`Tokenises.settles`).
-/

namespace OrderedEnv.Expansion

variable {cs : List Char}

/-! ## Texts in which nothing is left to expand -/

/-- Every character of the text stands for itself. -/
def Settled (cs : List Char) : Prop := Tokenises cs (cs.map .char)

theorem settled_nil : Settled [] := .nil

theorem Settled.cons {c : Char} (hc : c ≠ '$') (h : Settled cs) : Settled (c :: cs) :=
  Tokenises.cons (.plain hc) h

theorem Settled.append {text : List Char} (htext : '$' ∉ text) (h : Settled cs) :
    Settled (text ++ cs) := by
  induction text with
  | nil => exact h
  | cons c text ih =>
    obtain ⟨hc, htext⟩ := not_or.mp (mt List.mem_cons.mpr htext)
    exact (ih htext).cons (Ne.symm hc)

/-- Characters that stand for themselves contribute the text that they make up. -/
theorem join_map_resolve_char (lookup : String → Option Binding) (cs : List Char) :
    Binding.join ((cs.map Piece.char).map (Piece.resolve lookup)) = ⟨String.ofList cs, false⟩ := by
  induction cs with
  | nil => rfl
  | cons c cs ih =>
    rw [List.map_cons, List.map_cons, Binding.join_cons, ih]
    show Binding.mk _ _ = Binding.mk _ _
    rw [← List.singleton_append, String.ofList_append]
    rfl

/-- A text in which nothing is left to expand expands to itself. -/
theorem Settled.expand_eq {value : String} (h : Settled value.toList)
    (lookup : String → Option Binding) : expand lookup value = ⟨value, false⟩ := by
  have hpieces : pieces value.toList = value.toList.map .char := by
    rw [h.pieces_eq, List.map_map]
    rfl
  rw [expand_eq_join, hpieces, join_map_resolve_char, String.ofList_toList]

/-- A value without a `$` expands to itself. -/
theorem expand_of_not_mem {value : String} (h : '$' ∉ value.toList)
    (lookup : String → Option Binding) : expand lookup value = ⟨value, false⟩ := by
  have hsettled := settled_nil.append h
  rw [List.append_nil] at hsettled
  exact hsettled.expand_eq lookup

/-! ## What a value expands to -/

/-- The text that a piece puts into the result. -/
def Piece.written (lookup : String → Option Binding) (p : Piece) : List Char :=
  (p.resolve lookup).value.toList

theorem toList_value_expand (lookup : String → Option Binding) (value : String) :
    (expand lookup value).value.toList = (pieces value.toList).flatMap (Piece.written lookup) := by
  rw [expand_eq_join, Binding.toList_value_join, List.flatMap_map]
  rfl

variable {lookup : String → Option Binding} {ts : List Token}

theorem flatMap_written_char (c : Char) (ts : List Token) :
    ((Token.char c :: ts).map Token.piece).flatMap (Piece.written lookup) =
      c :: (ts.map Token.piece).flatMap (Piece.written lookup) := by
  have hc : Piece.written lookup (.char c) = [c] := String.toList_singleton c
  rw [List.map_cons, List.flatMap_cons, Token.piece, hc, List.singleton_append]

/-- A character that is no `$` is a token by itself. -/
theorem Tokenises.exists_cons_char {c : Char} (hc : c ≠ '$') (h : Tokenises (c :: cs) ts) :
    ∃ us, ts = .char c :: us := by
  cases h with
  | cons hstart _ =>
    obtain ⟨rfl, -⟩ := hstart.unique (.plain hc)
    exact ⟨_, rfl⟩

/-- **What is written for the tokens of a text is settled**, if no `$` is put in for a name. -/
theorem Tokenises.settles (h : Tokenises cs ts)
    (hplain : ∀ name, .reference name ∈ ts.map Token.piece →
      '$' ∉ Piece.written lookup (.reference name)) :
    Settled ((ts.map Token.piece).flatMap (Piece.written lookup)) := by
  induction h with
  | nil => exact settled_nil
  | @cons cs rest t ts hstart hrest ih =>
    have hsettled := ih fun name hname => hplain name (List.mem_cons_of_mem _ hname)
    cases hstart with
    | plain hc =>
      rw [flatMap_written_char]
      exact hsettled.cons hc
    | lastDollar =>
      -- the text ends here, and so does the result
      rw [flatMap_written_char]
      cases hrest with
      | nil => exact Tokenises.cons .lastDollar .nil
      | cons h _ => cases h
    | @dollar c cs hbrace hshort hname =>
      -- the next character is one that starts no name, so it comes next in the result as well
      have hc : c ≠ '$' := by
        rintro rfl
        exact hshort (.inl (by decide))
      obtain ⟨us, rfl⟩ := hrest.exists_cons_char hc
      rw [flatMap_written_char] at hsettled
      rw [flatMap_written_char, flatMap_written_char]
      exact Tokenises.cons (.dollar hbrace hshort hname) hsettled
    | emptyBraces | openBrace _ => exact hsettled
    | braced _ _ | short _ | name _ _ _ => exact hsettled.append (hplain _ List.mem_cons_self)

/--
**A second expansion changes nothing.**

If no variable that a value refers to holds a `$`, every character of the result stands for itself,
and whatever the variables are then, the result expands to itself and is no secret.
-/
theorem expand_expand {lookup : String → Option Binding} {value : String}
    (h : ∀ name binding, .reference name ∈ parse value → lookup name = some binding →
      '$' ∉ binding.value.toList) :
    Settled (expand lookup value).value.toList ∧
      ∀ other : String → Option Binding,
        expand other (expand lookup value).value = ⟨(expand lookup value).value, false⟩ := by
  obtain ⟨ts, hts⟩ := exists_tokenises value.toList
  have hplain : ∀ name, .reference name ∈ ts.map Token.piece →
      '$' ∉ Piece.written lookup (.reference name) := by
    intro name hname
    have hmem : .reference (String.ofList name) ∈ parse value := by
      rw [parse_eq_of_tokenises hts]
      exact reference_mem_join hname []
    show '$' ∉ ((lookup (String.ofList name)).getD ⟨"", false⟩).value.toList
    cases hfound : lookup (String.ofList name) with
    | none => exact List.not_mem_nil
    | some binding => exact h _ binding hmem hfound
  have hsettled : Settled (expand lookup value).value.toList := by
    rw [toList_value_expand, hts.pieces_eq]
    exact hts.settles hplain
  exact ⟨hsettled, hsettled.expand_eq⟩

/-- The result keeps two `$`, one in front of what was put in for a name and one at its end. -/
theorem expand_expand_price :
    let lookup : String → Option Binding := fun name =>
      if name = "A" then some ⟨"{x}", true⟩ else none
    (∀ name binding, .reference name ∈ parse "$=${A}${}b$" → lookup name = some binding →
        '$' ∉ binding.value.toList) ∧
      expand lookup "$=${A}${}b$" = ⟨"$={x}b$", true⟩ ∧
      ∀ other : String → Option Binding, expand other "$={x}b$" = ⟨"$={x}b$", false⟩ := by
  intro lookup
  have h : ∀ name binding, .reference name ∈ parse "$=${A}${}b$" → lookup name = some binding →
      '$' ∉ binding.value.toList := by
    intro name binding _ hfound
    by_cases hname : name = "A"
    · simp only [lookup, if_pos hname, Option.some.injEq] at hfound
      subst hfound
      decide
    · simp only [lookup, if_neg hname, reduceCtorEq] at hfound
  have htokens : Tokenises "$=${A}${}b$".toList
      [.char '$', .char '=', .braced ['A'], .emptyBraces, .char 'b', .char '$'] :=
    .cons (.dollar (by decide) (by decide) (by decide)) <| .cons (.plain (by decide)) <|
      .cons (@Starts.braced ['A'] _ (by decide) (by decide)) <| .cons .emptyBraces <|
        .cons (.plain (by decide)) <| .cons .lastDollar .nil
  have hfirst : expand lookup "$=${A}${}b$" = ⟨"$={x}b$", true⟩ := by
    rw [expand_eq_join, htokens.pieces_eq]
    rfl
  refine ⟨h, hfirst, fun other => ?_⟩
  have hsecond := (expand_expand h).2 other
  rwa [hfirst] at hsecond

end OrderedEnv.Expansion
