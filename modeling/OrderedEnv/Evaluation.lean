import OrderedEnv.Declaration.Raw
import OrderedEnv.History
import Std.Data.ExtTreeSet

/-!
# Evaluation

Declarations are evaluated in one pass over a table that starts as the ambient environment. Each
declaration becomes one command, and the command changes the table before the next declaration is
looked at.

So a reference sees the ambient environment and what earlier declarations did to it. It never sees
a later declaration, nor the declaration it stands in: `A: $A` takes up the ambient value of `A`.

A value is secret when its declaration says so, or when a secret value was put into it.
-/

namespace OrderedEnv

open Expansion (Binding expand)

/-- The values that a declaration can see, with what is secret among them. -/
abbrev Table := Std.ExtTreeMap String Binding

namespace Table

/-- In the ambient environment nothing is secret. -/
def ofEnvironment (e : Environment) : Table := e.map fun _ value => ⟨value, false⟩

/-- Carries out one command. -/
def apply (table : Table) : Command → Table
  | .set key value sensitive => table.insert key ⟨value, sensitive⟩
  | .unset key => table.erase key
  | .skip _ => table

/-- The values without what is secret among them. -/
def values (table : Table) : Environment := table.map fun _ binding => binding.value

end Table

namespace Declaration

/-- The value that is set, and whether it is secret. -/
def resolve (d : Declaration) (lookup : String → Option Binding) : Binding :=
  let found := if d.options.expand then expand lookup d.value else ⟨d.value, false⟩
  ⟨found.value, d.options.sensitive || found.sensitive⟩

/-- The command of a declaration. Unsetting comes first, then skipping. -/
def command (d : Declaration) (lookup : String → Option Binding) : Command :=
  if d.options.unset then .unset d.key
  else if d.isSkipped then .skip d.key
  else
    let binding := d.resolve lookup
    .set d.key binding.value binding.sensitive

end Declaration

/-- The commands of declarations, and the table they leave behind. -/
def run (table : Table) : List Declaration → Table × History
  | [] => (table, [])
  | d :: rest =>
    let command := d.command fun name => table[name]?
    let (final, history) := run (table.apply command) rest
    (final, command :: history)

/-- What came of evaluating declarations. -/
structure Outcome where
  /-- The environment after all declarations. -/
  environment : Environment
  /-- The part of it that is declared. -/
  declared : Environment
  /-- One command for each declaration. -/
  history : History
  /-- The variables whose value is secret. -/
  sensitiveKeys : Std.ExtTreeSet String

/-- The outcome of evaluating declarations over an ambient environment. -/
def outcome (declarations : List Declaration) (ambient : Environment) : Outcome :=
  let (table, history) := run (Table.ofEnvironment ambient) declarations
  let environment := table.values
  { environment
    declared := environment.filter fun key _ => declarations.any fun d => d.key = key
    history
    sensitiveKeys :=
      Std.ExtTreeSet.ofList ((table.toList.filter fun entry => entry.2.sensitive).map Prod.fst) }

/-- Why an evaluation was given up. -/
inductive EvaluationError where
  /-- A raw declaration is malformed. -/
  | malformed (index : Nat) (cause : DeclarationError)
  /-- The ambient environment could not be read. -/
  | lookupUnavailable (cause : SourceError)
  deriving DecidableEq

/-- The message of an error. -/
def EvaluationError.message : EvaluationError → String
  | .malformed index cause =>
    "malformed declaration at index " ++ toString index ++ ": " ++ cause.message
  | .lookupUnavailable cause => "environment lookup unavailable: " ++ cause.message

/-- Evaluates declarations over a source. -/
def evaluate (declarations : List Declaration) (source : Source) :
    Except EvaluationError Outcome :=
  match source.snapshot with
  | .ok ambient => .ok (outcome declarations ambient)
  | .error cause => .error (.lookupUnavailable cause)

/-- Reads raw declarations in order, up to the first malformed one, which is reported by its
index. -/
def normalizeFrom (index : Nat) :
    List RawDeclaration → Except (Nat × DeclarationError) (List Declaration)
  | [] => .ok []
  | raw :: rest =>
    match Declaration.ofRaw raw with
    | .error cause => .error (index, cause)
    | .ok d => (normalizeFrom (index + 1) rest).map (d :: ·)

/-- Reads raw declarations in order. -/
def normalize (raws : List RawDeclaration) :
    Except (Nat × DeclarationError) (List Declaration) := normalizeFrom 0 raws

/-- Evaluates raw declarations. A malformed one is reported before the source is read. -/
def evaluateRaw (raws : List RawDeclaration) (source : Source) :
    Except EvaluationError Outcome :=
  match normalize raws with
  | .ok declarations => evaluate declarations source
  | .error (index, cause) => .error (.malformed index cause)

end OrderedEnv
