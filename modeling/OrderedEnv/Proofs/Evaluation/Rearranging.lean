import OrderedEnv.Proofs.Evaluation.LastDeclaration

/-!
# Lists that can be rearranged

The order of declarations matters only where one of them reads or changes what another one changes.
So neighbours that have nothing to do with each other may change places (`evaluate_exchange`), and
a declaration may be left out if its variable is not looked at before it is set or removed again
(`evaluate_omit_shadowed`).

Both times there are two runs over tables that are not the same. What is kept from one declaration
to the next is that they differ at one variable at most (`Table.SameBut`). As long as that variable
is not read, both runs give the same commands, and the first command that changes the variable makes
the tables the same again.
-/

namespace OrderedEnv

open Expansion (Binding)

/-! ## Tables that differ at one variable -/

/-- A command changes no variable but its own. -/
theorem Command.key_of_target? {c : Command} {key : String} (h : c.target? = some key) :
    c.key = key := by
  cases c with
  | set k value sensitive => exact Option.some.inj h
  | unset k => exact Option.some.inj h
  | skip k => cases h

namespace Table

/-- Two tables hold the same for every variable but one. -/
def SameBut (key : String) (a b : Table) : Prop := ∀ name, name ≠ key → a[name]? = b[name]?

variable {a b : Table} {key : String} {c c' : Command}

theorem sameBut_apply (table : Table) (c : Command) : SameBut c.key (table.apply c) table := by
  intro name hname
  rw [getElem?_apply, if_neg fun htarget => hname (Command.key_of_target? htarget).symm]

theorem SameBut.apply (h : SameBut key a b) (c : Command) :
    SameBut key (a.apply c) (b.apply c) := by
  intro name hname
  rw [getElem?_apply, getElem?_apply, h name hname]

/-- A command that changes the variable leaves no difference. -/
theorem SameBut.apply_eq (h : SameBut key a b) (hc : c.target? = some key) :
    a.apply c = b.apply c := by
  ext name : 1
  rw [getElem?_apply, getElem?_apply]
  split
  · rfl
  · next hne => exact h name fun heq => hne (heq ▸ hc)

/-- **Commands about different variables commute.** -/
theorem apply_comm (h : c.key ≠ c'.key) (table : Table) :
    (table.apply c).apply c' = (table.apply c').apply c := by
  ext name : 1
  rw [getElem?_apply, getElem?_apply, getElem?_apply, getElem?_apply]
  by_cases hc : c.target? = some name
  · have hc' : c'.target? ≠ some name := fun hc' =>
      h ((Command.key_of_target? hc).trans (Command.key_of_target? hc').symm)
    rw [if_neg hc', if_pos hc, if_pos hc]
  · rw [if_neg hc, if_neg hc]

end Table

/-! ## Runs over such tables -/

section Runs

variable {a b : Table} {key : String} {d e : Declaration} {ds : List Declaration}

theorem Declaration.command_eq_of_sameBut (h : a.SameBut key b) (hd : ¬d.Reads key) :
    (d.command fun name => a[name]?) = d.command fun name => b[name]? :=
  command_congr fun name hname => h name fun heq => hd (heq ▸ hname)

/-- Where the variable is not read, the same is done over both tables. -/
theorem run_sameBut (h : a.SameBut key b) (hds : ∀ d ∈ ds, ¬d.Reads key) :
    (run a ds).1.SameBut key (run b ds).1 ∧ (run a ds).2 = (run b ds).2 := by
  induction ds generalizing a b with
  | nil => exact ⟨h, rfl⟩
  | cons d rest ih =>
    have hcommand := Declaration.command_eq_of_sameBut h (hds d List.mem_cons_self)
    -- the same command goes to both tables, so they still differ at one variable only
    obtain ⟨htable, hhistory⟩ :=
      ih (h.apply (d.command _)) fun e he => hds e (List.mem_cons_of_mem d he)
    simp only [run, ← hcommand]
    exact ⟨htable, congrArg (_ :: ·) hhistory⟩

/-- Once the variable is changed in both tables by a declaration that does not read it, nothing is
left of the difference. -/
theorem run_cons_of_sameBut (h : a.SameBut key b) (he : e.target? = some key) (hread : ¬e.Reads key)
    (rest : List Declaration) : run a (e :: rest) = run b (e :: rest) := by
  have hcommand := Declaration.command_eq_of_sameBut h hread
  have htarget : (e.command fun name => a[name]?).target? = some key := by
    rw [Declaration.target?_command, he]
  simp only [run, ← hcommand, h.apply_eq htarget]

end Runs

/-! ## Outcomes -/

/-- Two outcomes that differ at most in their histories. -/
structure Outcome.SameButHistory (o p : Outcome) : Prop where
  environment : o.environment = p.environment
  declared : o.declared = p.declared
  sensitiveKeys : o.sensitiveKeys = p.sensitiveKeys

/-- The second outcome has the same history, but with the commands at the `i`-th place and behind it
in the other order. -/
structure Outcome.Exchanges (i : Nat) (o p : Outcome) : Prop extends SameButHistory o p where
  history : ∃ front c c' back, front.length = i ∧
    o.history = front ++ c :: c' :: back ∧ p.history = front ++ c' :: c :: back

/-- The second outcome has the same history, but without the command at the `i`-th place. -/
structure Outcome.Omits (i : Nat) (o p : Outcome) : Prop extends SameButHistory o p where
  history : ∃ front c back, front.length = i ∧
    o.history = front ++ c :: back ∧ p.history = front ++ back

namespace Outcome

variable {ds es : List Declaration} {ambient : Environment}

/-- What an outcome leaves behind is settled by the table at the end, and by the variables that are
declared. -/
theorem sameButHistory_of_finalTable_eq (htable : finalTable ds ambient = finalTable es ambient)
    (hkeys : ∀ key, key ∈ ds.map Declaration.key ↔ key ∈ es.map Declaration.key) :
    (outcome ds ambient).SameButHistory (outcome es ambient) where
  environment := by rw [environment_outcome, environment_outcome, htable]
  declared := by
    ext key : 1
    rw [getElem?_declared, getElem?_declared, environment_outcome, environment_outcome, htable]
    simp only [hkeys]
  sensitiveKeys := by
    ext key
    rw [mem_sensitiveKeys, mem_sensitiveKeys, htable]

end Outcome

/-- Two lists over one source: neither can be evaluated, for the same reason, or both can be, and
the outcomes are related. -/
structure EvaluatedAlike (R : Outcome → Outcome → Prop) (ds es : List Declaration)
    (source : Source) : Prop where
  unavailable : ∀ cause, source.snapshot = .error cause →
    evaluate ds source = .error (.lookupUnavailable cause) ∧
      evaluate es source = .error (.lookupUnavailable cause)
  available : ∀ ambient, source.snapshot = .ok ambient →
    ∃ o p, evaluate ds source = .ok o ∧ evaluate es source = .ok p ∧ R o p

theorem evaluatedAlike_of_outcome {R : Outcome → Outcome → Prop} {ds es : List Declaration}
    (h : ∀ ambient, R (outcome ds ambient) (outcome es ambient)) (source : Source) :
    EvaluatedAlike R ds es source where
  unavailable := by
    intro cause hcause
    simp only [evaluate, hcause, and_self]
  available := fun ambient hambient =>
    ⟨_, _, evaluate_eq_ok hambient ds, evaluate_eq_ok hambient es, h ambient⟩

/-! ## Exchanging neighbours -/

/-- Neither of two declarations reads or changes what the other one changes. -/
structure Declaration.Independent (d e : Declaration) : Prop where
  key : d.key ≠ e.key
  left : ¬d.Reads e.key
  right : ¬e.Reads d.key

section Exchange

variable {d e : Declaration}

/-- A declaration does over a table what it does after another one of which it is independent. -/
theorem Declaration.Independent.command_apply (h : d.Independent e) (table : Table)
    (f : String → Option Binding) :
    (d.command fun name => (table.apply (e.command f))[name]?) =
      d.command fun name => table[name]? := by
  have hsame := table.sameBut_apply (e.command f)
  rw [Declaration.key_command] at hsame
  exact Declaration.command_eq_of_sameBut hsame h.left

theorem Declaration.Independent.symm (h : d.Independent e) : e.Independent d :=
  ⟨h.key.symm, h.right, h.left⟩

/-- The commands of two independent declarations are both made from the table in front of them. -/
theorem run_cons_cons_of_independent (h : d.Independent e) {table : Table} {c c' : Command}
    (hc : (d.command fun name => table[name]?) = c)
    (hc' : (e.command fun name => table[name]?) = c') (back : List Declaration) :
    run table (d :: e :: back) =
      ((run ((table.apply c).apply c') back).1,
        c :: c' :: (run ((table.apply c).apply c') back).2) := by
  subst hc hc'
  simp only [run, h.symm.command_apply]

/-- Two independent declarations have the same commands in either order, and behind them everything
is the same. -/
theorem run_exchange (h : d.Independent e) (table : Table) (back : List Declaration) :
    ∃ c c' final history, run table (d :: e :: back) = (final, c :: c' :: history) ∧
      run table (e :: d :: back) = (final, c' :: c :: history) := by
  obtain ⟨c, hc⟩ : ∃ c, (d.command fun name => table[name]?) = c := ⟨_, rfl⟩
  obtain ⟨c', hc'⟩ : ∃ c', (e.command fun name => table[name]?) = c' := ⟨_, rfl⟩
  have hkey : c.key ≠ c'.key := by
    rw [← hc, ← hc', Declaration.key_command, Declaration.key_command]
    exact h.key
  have hed := run_cons_cons_of_independent h.symm hc' hc back
  -- what follows starts from one table, since the two commands commute
  rw [← Table.apply_comm hkey] at hed
  exact ⟨c, c', _, _, run_cons_cons_of_independent h hc hc' back, hed⟩

theorem Outcome.exchanges (h : d.Independent e) (front back : List Declaration)
    (ambient : Environment) :
    (outcome (front ++ d :: e :: back) ambient).Exchanges front.length
      (outcome (front ++ e :: d :: back) ambient) := by
  obtain ⟨c, c', final, history, hde, hed⟩ := run_exchange h (finalTable front ambient) back
  have hsame : (outcome (front ++ d :: e :: back) ambient).SameButHistory
      (outcome (front ++ e :: d :: back) ambient) := by
    refine sameButHistory_of_finalTable_eq ?_ fun key => ?_
    · rw [finalTable_append, finalTable_append, hde, hed]
    · have hperm : (front ++ d :: e :: back).Perm (front ++ e :: d :: back) :=
        (List.Perm.swap e d back).append_left front
      exact (hperm.map Declaration.key).mem_iff
  refine ⟨hsame, (outcome front ambient).history, c, c', history, ?_, ?_, ?_⟩
  · exact Reaching.length_history front ambient
  · rw [history_append, hde]
  · rw [history_append, hed]

end Exchange

/--
**Independent neighbours may change places.**

If neither of two declarations reads or changes the variable of the other, evaluation leaves the
same in either order, over every source, and its history has the same commands, with these two
exchanged.
-/
theorem evaluate_exchange {d e : Declaration} (h : d.Independent e) (front back : List Declaration)
    (source : Source) :
    EvaluatedAlike (Outcome.Exchanges front.length) (front ++ d :: e :: back)
      (front ++ e :: d :: back) source :=
  evaluatedAlike_of_outcome (Outcome.exchanges h front back) source

/-- Two variables take up their ambient values and that of a third one, and both are read behind
them. -/
theorem evaluate_exchange_prefixed :
    let d : Declaration := { key := "A", value := "$X:$A", options := { sensitive := true } }
    let e : Declaration := { key := "B", value := "${X}$B" }
    let front : List Declaration := [{ key := "X", value := "1" }]
    let back : List Declaration := [{ key := "C", value := "$A/$B" }]
    let source : Source := .table (.ofPairs [("A", "a"), ("B", "b")])
    d.Independent e ∧
      EvaluatedAlike (Outcome.Exchanges 1) (front ++ d :: e :: back) (front ++ e :: d :: back)
        source ∧
      ∃ o, evaluate (front ++ d :: e :: back) source = .ok o ∧ o.history =
        [.set "X" "1" false, .set "A" "1:a" true, .set "B" "1b" false, .set "C" "1:a/1b" true] := by
  intro d e front back source
  have h : d.Independent e := ⟨by decide, fun hd => absurd hd.mem (by decide +kernel),
    fun he => absurd he.mem (by decide +kernel)⟩
  exact ⟨h, evaluate_exchange h front back source, _, rfl, by decide +kernel⟩

/-! ## Leaving out what is shadowed -/

/-- A declaration is shadowed by a later one that sets or removes its variable, if nothing between
them reads the variable, nor the later one itself. -/
structure Declaration.ShadowedBy (d : Declaration) (between : List Declaration) (e : Declaration) :
    Prop where
  key : e.key = d.key
  acts : e.options.unset = true ∨ e.isSkipped = false
  unread : ∀ x ∈ between, ¬x.Reads d.key
  unread_self : ¬e.Reads d.key

section Omit

variable {d e : Declaration} {between : List Declaration}

theorem Declaration.ShadowedBy.target?_eq (h : d.ShadowedBy between e) :
    e.target? = some d.key := by
  unfold Declaration.target?
  rcases h.acts with hu | hs
  · rw [if_pos hu, h.key]
  · simp only [hs, Bool.false_eq_true, if_false, ite_self, h.key]

/-- The declaration makes no difference but at its own variable, and only up to the one that shadows
it. -/
theorem run_omit_shadowed (h : d.ShadowedBy between e) (table : Table) (back : List Declaration) :
    ∃ c final history, run table (d :: between ++ e :: back) = (final, c :: history) ∧
      run table (between ++ e :: back) = (final, history) := by
  have hsame := table.sameBut_apply (d.command fun name => table[name]?)
  rw [Declaration.key_command] at hsame
  obtain ⟨htable, hhistory⟩ := run_sameBut hsame h.unread
  -- with `e` the difference ends, and with it all that is left of `d`
  refine ⟨d.command fun name => table[name]?, _, _, ?_, rfl⟩
  rw [List.cons_append, run, run_append, run_append table,
    run_cons_of_sameBut htable h.target?_eq h.unread_self, hhistory]

theorem Outcome.omits (h : d.ShadowedBy between e) (front back : List Declaration)
    (ambient : Environment) :
    (outcome (front ++ d :: between ++ e :: back) ambient).Omits front.length
      (outcome (front ++ between ++ e :: back) ambient) := by
  obtain ⟨c, final, history, hwith, hwithout⟩ :=
    run_omit_shadowed h (finalTable front ambient) back
  rw [List.append_assoc, List.append_assoc]
  have hsame : (outcome (front ++ (d :: between ++ e :: back)) ambient).SameButHistory
      (outcome (front ++ (between ++ e :: back)) ambient) := by
    refine sameButHistory_of_finalTable_eq ?_ fun key => ?_
    · rw [finalTable_append, finalTable_append, hwith, hwithout]
    · simp only [List.map_append, List.map_cons, List.mem_append, List.mem_cons, h.key]
      tauto
  refine ⟨hsame, (outcome front ambient).history, c, history, ?_, ?_, ?_⟩
  · exact Reaching.length_history front ambient
  · rw [history_append, hwith]
  · rw [history_append, hwithout]

end Omit

/--
**A shadowed declaration may be left out.**

If a later declaration sets or removes the same variable, and nobody reads the variable in between,
evaluation leaves the same without the first one, over every source, and its history has the same
commands, without that of the declaration that was left out.
-/
theorem evaluate_omit_shadowed {d e : Declaration} {between : List Declaration}
    (h : d.ShadowedBy between e) (front back : List Declaration) (source : Source) :
    EvaluatedAlike (Outcome.Omits front.length) (front ++ d :: between ++ e :: back)
      (front ++ between ++ e :: back) source :=
  evaluatedAlike_of_outcome (Outcome.omits h front back) source

/-- A secret is set, its variable is skipped and removed, and then takes the value of another one. -/
theorem evaluate_omit_shadowed_token :
    let d : Declaration := { key := "A", value := "$X", options := { sensitive := true } }
    let e : Declaration := { key := "A", value := "$B!" }
    let front : List Declaration := [{ key := "X", value := "abc" }]
    let between : List Declaration :=
      [{ key := "A", value := "", options := { skipIfEmpty := true } }, .remove "A",
        { key := "B", value := "$$A", options := { expand := false } }]
    let back : List Declaration := [{ key := "C", value := "$A" }]
    d.ShadowedBy between e ∧
      EvaluatedAlike (Outcome.Omits 1) (front ++ d :: between ++ e :: back)
        (front ++ between ++ e :: back) .empty ∧
      ∃ o, evaluate (front ++ d :: between ++ e :: back) .empty = .ok o ∧ o.history =
        [.set "X" "abc" false, .set "A" "abc" true, .skip "A", .unset "A", .set "B" "$$A" false,
          .set "A" "$$A!" false, .set "C" "$$A!" false] := by
  intro d e front between back
  have h : d.ShadowedBy between e := by
    refine ⟨rfl, .inr rfl, fun x hx hread => ?_, fun he => absurd he.mem (by decide +kernel)⟩
    simp only [between, List.mem_cons, List.not_mem_nil, or_false] at hx
    rcases hx with rfl | rfl | rfl
    · exact absurd hread.isSkipped (by decide)
    · exact absurd hread.unset (by decide)
    · exact absurd hread.expand (by decide)
  exact ⟨h, evaluate_omit_shadowed h front back .empty, _, rfl, by decide +kernel⟩

end OrderedEnv
