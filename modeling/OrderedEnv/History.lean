import OrderedEnv.Environment

/-!
# Histories

Evaluation does not touch any environment. It says what is to be done as a list of commands, and
the commands are then replayed: into a table, into the changes for a child process, or into the
statements of a shell script.

A replay is a fold over the history, so what it does to a history that was cut in two is what it
does to the two parts in turn.
-/

namespace OrderedEnv

/-- What one declaration did. -/
inductive Command where
  | set (key value : String) (sensitive : Bool)
  | unset (key : String)
  | skip (key : String)
  deriving DecidableEq, Repr

namespace Command

/-- The variable a command is about. -/
def key : Command → String
  | .set key _ _ => key
  | .unset key => key
  | .skip key => key

/-- The value a command sets, empty for the other commands. -/
def value : Command → String
  | .set _ value _ => value
  | .unset _ => ""
  | .skip _ => ""

/-- The command sets a value that must be kept secret. -/
def sensitive : Command → Bool
  | .set _ _ sensitive => sensitive
  | .unset _ => false
  | .skip _ => false

end Command

/-- The commands of an evaluation, one for each declaration. -/
abbrev History := List Command

/-! ## Replaying into a table -/

namespace Environment

/-- Carries out one command. -/
def apply (e : Environment) : Command → Environment
  | .set key value _ => e.insert key value
  | .unset key => e.erase key
  | .skip _ => e

/-- Carries out the commands of a history in order. -/
def replay (e : Environment) (history : History) : Environment := history.foldl apply e

end Environment

/-! ## Replaying into a child process -/

/-- The changes to the environment that a child process inherits: a value, or `none` for a variable
that is removed. -/
abbrev Changes := Std.ExtTreeMap String (Option String)

namespace Changes

/-- Notes one command. -/
def apply (changes : Changes) : Command → Changes
  | .set key value _ => changes.insert key (some value)
  | .unset key => changes.insert key none
  | .skip _ => changes

/-- Notes the commands of a history in order. -/
def ofHistory (history : History) : Changes := history.foldl apply ∅

/-- The environment with one change made. -/
def change (e : Environment) (key : String) : Option String → Environment
  | some value => e.insert key value
  | none => e.erase key

/-- What a child process finds when it inherits an environment with these changes. -/
def overlay (changes : Changes) (inherited : Environment) : Environment :=
  changes.foldl change inherited

end Changes

end OrderedEnv
