import OrderedEnv.Machine

/-!
# Steps on machines

The tool is written for any host. On a machine as a value, each of its steps is a function, and
`Yields step machine a machine'` says that a step which may fail ends well: it gives `a` and leaves
`machine'` behind.

One lemma for each way in which steps are put together turns `Yields` into statements about the
parts, so no other proof has to look at how steps are represented.
-/

namespace OrderedEnv

/-- A step that may fail, on a machine. -/
abbrev MachineStep (ε α : Type) := ExceptT ε (StateM Machine) α

variable {ε ε' α β : Type} {machine machine' : Machine}

/-- What a step gives, and the machine that it leaves behind. -/
def MachineStep.outcome (step : MachineStep ε α) (machine : Machine) : Except ε α × Machine :=
  (step.run.run machine).run

/-- The step ends well. -/
def Yields (step : MachineStep ε α) (machine : Machine) (a : α) (machine' : Machine) : Prop :=
  step.outcome machine = (.ok a, machine')

theorem yields_of_toBool {step : MachineStep ε Unit}
    (h : (step.outcome machine).1.toBool = true) :
    Yields step machine () (step.outcome machine).2 := by
  unfold Yields
  cases hstep : step.outcome machine with
  | mk result between =>
    cases result with
    | error cause => rw [hstep] at h; cases h
    | ok _ => rfl

theorem not_yields_of_toBool {step : MachineStep ε α} {a : α}
    (h : (step.outcome machine).1.toBool = false) : ¬Yields step machine a machine' := by
  intro hyields
  rw [hyields] at h
  cases h

/-! ## Putting steps together -/

@[simp] theorem yields_pure {a b : α} :
    Yields (pure a : MachineStep ε α) machine b machine' ↔ a = b ∧ machine = machine' := by
  show ((Except.ok a : Except ε α), machine) = (.ok b, machine') ↔ _
  simp

@[simp] theorem yields_throw {cause : ε} {b : α} :
    ¬Yields (throw cause : MachineStep ε α) machine b machine' := by
  show ¬((Except.error cause : Except ε α), machine) = _
  simp

theorem outcome_bind (step : MachineStep ε α) (next : α → MachineStep ε β) :
    (step >>= next).outcome machine =
      match step.outcome machine with
      | (.ok a, between) => (next a).outcome between
      | (.error cause, between) => (.error cause, between) := by
  unfold MachineStep.outcome
  simp only [ExceptT.run_bind, StateT.run_bind]
  cases StateT.run step.run machine with
  | mk result between => cases result <;> rfl

theorem yields_bind {step : MachineStep ε α} {next : α → MachineStep ε β} {b : β} :
    Yields (step >>= next) machine b machine' ↔
      ∃ a between, Yields step machine a between ∧ Yields (next a) between b machine' := by
  unfold Yields
  rw [outcome_bind]
  cases step.outcome machine with
  | mk result between =>
    cases result with
    | error cause => simp
    | ok a =>
      constructor
      · exact fun hb => ⟨a, between, rfl, hb⟩
      · rintro ⟨a', between', he, hb⟩
        cases he
        exact hb

/-- A step that cannot fail. -/
theorem yields_lift {step : StateM Machine α} {a : α} :
    Yields (ExceptT.lift step : MachineStep ε α) machine a machine' ↔
      (step.run machine).run = (a, machine') := by
  show ((Except.ok (step.run machine).run.1 : Except ε α), (step.run machine).run.2) = _ ↔ _
  simp [Prod.ext_iff]

theorem outcome_adapt (step : MachineStep ε α) (f : ε → ε') :
    MachineStep.outcome (step.adapt f) machine =
      ((step.outcome machine).1.mapError f, (step.outcome machine).2) :=
  rfl

@[simp] theorem yields_adapt {step : MachineStep ε α} {f : ε → ε'} {a : α} :
    Yields (step.adapt f) machine a machine' ↔ Yields step machine a machine' := by
  unfold Yields
  rw [outcome_adapt]
  cases step.outcome machine with
  | mk result between =>
    cases result with
    | error cause =>
      show (Except.error (f cause), between) = _ ↔ _
      simp
    | ok a =>
      show (Except.ok a, between) = _ ↔ _
      simp

/-- A result that does not come from the machine. -/
@[simp] theorem yields_liftExcept {result : Except ε α} {a : α} :
    Yields (liftM result : MachineStep ε α) machine a machine' ↔
      result = .ok a ∧ machine = machine' := by
  show (result, machine) = _ ↔ _
  simp

/-! ## Files -/

/-- The text of a file is read, and nothing is changed. -/
theorem yields_readText {path : Path} {found : Except FileError String} :
    Yields (Disk.readText path : MachineStep ε (Except FileError String)) machine found machine' ↔
      found = Disk.textOf (machine.files.read path) ∧ machine' = machine := by
  show (Except.ok (Disk.textOf (machine.files.read path)), machine) = _ ↔ _
  simp [eq_comm]

theorem yields_isPresent {path : Path} {present : Bool} :
    Yields (Disk.isPresent path : MachineStep ε Bool) machine present machine' ↔
      present = (machine.files.lookup path).toBool ∧ machine' = machine := by
  show (Except.ok (machine.files.lookup path).toBool, machine) = _ ↔ _
  simp [eq_comm]

/-- Nothing but the files is changed. -/
theorem yields_change (step : FileSystem → Except FileError FileSystem) :
    Yields (ExceptT.lift (Machine.change step) : MachineStep ε (Except FileError Unit)) machine
        (.ok ()) machine' ↔
      ∃ files, step machine.files = .ok files ∧ machine' = { machine with files } := by
  rw [yields_lift]
  cases h : step machine.files with
  | error cause => simp [Machine.change, h]
  | ok files => simp [Machine.change, h, eq_comm]

/-! ## The host -/

theorem yields_print {text : String} :
    Yields (Host.print text : MachineStep ε Unit) machine () machine' ↔
      machine' = { machine with output := machine.output ++ text.toUTF8 } := by
  show (Except.ok (), { machine with output := machine.output ++ text.toUTF8 }) = _ ↔ _
  simp [eq_comm]

/-- All that waits in a pipe is taken out of it. If nothing waits in one, nothing happens. -/
theorem of_yields_pipedInput {found : Option ByteArray}
    (h : Yields (Host.pipedInput : MachineStep ε (Option ByteArray)) machine found machine') :
    (∃ content, machine.input = .pipe content ∧ content.isEmpty = false ∧ found = some content ∧
        machine' = { machine with input := .pipe .empty }) ∨
      (∀ content, machine.input = .pipe content → content.isEmpty = true) ∧ found = none ∧
        machine' = machine := by
  have hrun := yields_lift.mp h
  cases hinput : machine.input with
  | pipe content =>
    cases hempty : content.isEmpty with
    | false =>
      simp [Host.pipedInput, hinput, hempty] at hrun
      exact .inl ⟨content, rfl, hempty, hrun.1.symm, hrun.2.symm⟩
    | true =>
      simp [Host.pipedInput, hinput, hempty] at hrun
      refine .inr ⟨fun other hother => ?_, hrun.1.symm, hrun.2.symm⟩
      obtain rfl := StandardInput.pipe.inj hother
      exact hempty
  | terminal typed =>
    simp [Host.pipedInput, hinput] at hrun
    exact .inr ⟨by simp, hrun.1.symm, hrun.2.symm⟩
  | nothing =>
    simp [Host.pipedInput, hinput] at hrun
    exact .inr ⟨by simp, hrun.1.symm, hrun.2.symm⟩

/-- A question can be asked: it is seen at a terminal, and something is typed at one. -/
structure Machine.Interactive (machine : Machine) (typed : List Char) : Prop where
  input : machine.input = .terminal typed
  errors : machine.errorsTerminal = true

/-- The answer to a question is the first line that is typed. If the question cannot be asked, there
is none, and nothing happens. -/
theorem of_yields_ask {question : String} {answer : Option ByteArray}
    (h : Yields (Host.ask question : MachineStep ε (Option ByteArray)) machine answer machine') :
    (∃ typed, machine.Interactive typed ∧
        answer = some (String.ofList (StandardInput.typedLine true typed).1).toUTF8 ∧
        machine' = { machine with
          errors := machine.errors ++ question
          input := .terminal (StandardInput.typedLine true typed).2 }) ∨
      (∀ typed, ¬machine.Interactive typed) ∧ answer = none ∧ machine' = machine := by
  have hrun := yields_lift.mp h
  cases hinput : machine.input with
  | terminal typed =>
    cases herrors : machine.errorsTerminal with
    | true =>
      simp [Host.ask, hinput, herrors] at hrun
      exact .inl ⟨typed, ⟨hinput, herrors⟩, hrun.1.symm, hrun.2.symm⟩
    | false =>
      simp [Host.ask, hinput, herrors] at hrun
      refine .inr ⟨fun _ hasked => ?_, hrun.1.symm, hrun.2.symm⟩
      exact absurd (herrors.symm.trans hasked.errors) (by decide)
  | pipe content =>
    simp [Host.ask, hinput] at hrun
    refine .inr ⟨fun _ hasked => ?_, hrun.1.symm, hrun.2.symm⟩
    exact absurd (hinput.symm.trans hasked.input) (by simp)
  | nothing =>
    simp [Host.ask, hinput] at hrun
    refine .inr ⟨fun _ hasked => ?_, hrun.1.symm, hrun.2.symm⟩
    exact absurd (hinput.symm.trans hasked.input) (by simp)

end OrderedEnv
