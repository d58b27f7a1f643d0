import Mathlib.Order.Defs.Unbundled
import OrderedEnv.Proofs.Machine

/-!
# How steps end

`Yields` is about steps that end well. Here are more ways to speak of a step. `FailsWith` says with
which error it ends and what machine it leaves behind; `Fails` says the same of some error. `Leaves`
is about the machine alone and holds however the step ends.

What a task changes is most easily said by a preorder on machines: it holds of a task if it holds of
each step (`leaves_bind_of_trans`). What a step does to the files is a preorder on file systems.
Steps on stores and limits change nothing but the files (`Machine.FilesOnly`), and those of commands
leave at least the environment alone (`Machine.FilesChange`).
-/

namespace OrderedEnv

variable {ε ε' α β : Type} {machine machine' : Machine}

/-! ## Failing for a reason -/

/-- The step fails for a reason and leaves `machine'` behind. -/
def FailsWith (step : MachineStep ε α) (machine : Machine) (cause : ε)
    (machine' : Machine) : Prop :=
  step.outcome machine = (.error cause, machine')

variable {cause : ε}

@[simp] theorem failsWith_pure {a : α} :
    ¬FailsWith (pure a : MachineStep ε α) machine cause machine' := by
  intro h
  cases h

@[simp] theorem failsWith_throw {cause' : ε} :
    FailsWith (throw cause' : MachineStep ε α) machine cause machine' ↔
      cause' = cause ∧ machine = machine' := by
  show ((Except.error cause' : Except ε α), machine) = (.error cause, machine') ↔ _
  simp

theorem failsWith_bind {step : MachineStep ε α} {next : α → MachineStep ε β} :
    FailsWith (step >>= next) machine cause machine' ↔
      FailsWith step machine cause machine' ∨
        ∃ a between, Yields step machine a between ∧ FailsWith (next a) between cause machine' := by
  unfold FailsWith Yields
  rw [outcome_bind]
  cases step.outcome machine with
  | mk result between =>
    cases result with
    | error cause => simp
    | ok a =>
      constructor
      · exact fun h => .inr ⟨a, between, rfl, h⟩
      · rintro (h | ⟨a', between', he, h⟩)
        · cases h
        · cases he
          exact h

@[simp] theorem failsWith_lift {step : StateM Machine α} :
    ¬FailsWith (ExceptT.lift step : MachineStep ε α) machine cause machine' := by
  intro h
  cases h

/-- A result that does not come from the machine. -/
@[simp] theorem failsWith_liftExcept {result : Except ε α} :
    FailsWith (liftM result : MachineStep ε α) machine cause machine' ↔
      result = .error cause ∧ machine = machine' := by
  show (result, machine) = (.error cause, machine') ↔ _
  simp

/-- The reason is put in other terms. -/
theorem failsWith_adapt {step : MachineStep ε α} {f : ε → ε'} {cause' : ε'} :
    FailsWith (step.adapt f) machine cause' machine' ↔
      ∃ cause, FailsWith step machine cause machine' ∧ f cause = cause' := by
  unfold FailsWith
  rw [outcome_adapt]
  cases step.outcome machine with
  | mk result between =>
    cases result with
    | error cause =>
      constructor
      · intro h
        cases h
        exact ⟨cause, rfl, rfl⟩
      · rintro ⟨_, h, rfl⟩
        cases h
        rfl
    | ok a =>
      constructor
      · intro h
        cases h
      · rintro ⟨_, h, -⟩
        cases h

/-! ## Failing -/

/-- The step fails, for whatever reason, and leaves `machine'` behind. -/
def Fails (step : MachineStep ε α) (machine machine' : Machine) : Prop :=
  ∃ cause, FailsWith step machine cause machine'

theorem fails_of_toBool {step : MachineStep ε α}
    (h : (step.outcome machine).1.toBool = false) :
    Fails step machine (step.outcome machine).2 := by
  unfold Fails FailsWith
  cases hstep : step.outcome machine with
  | mk result between =>
    cases result with
    | error cause => exact ⟨cause, rfl⟩
    | ok a => rw [hstep] at h; cases h

/-- A step ends well or fails. -/
theorem exists_yields_or_fails (step : MachineStep ε α) (machine : Machine) :
    (∃ a machine', Yields step machine a machine') ∨ ∃ machine', Fails step machine machine' := by
  cases hstep : step.outcome machine with
  | mk result between =>
    cases result with
    | error cause => exact .inr ⟨between, cause, hstep⟩
    | ok a => exact .inl ⟨a, between, hstep⟩

@[simp] theorem fails_pure {a : α} : ¬Fails (pure a : MachineStep ε α) machine machine' := by
  simp [Fails]

@[simp] theorem fails_throw {cause : ε} :
    Fails (throw cause : MachineStep ε α) machine machine' ↔ machine' = machine := by
  simp [Fails, eq_comm]

theorem fails_bind {step : MachineStep ε α} {next : α → MachineStep ε β} :
    Fails (step >>= next) machine machine' ↔
      Fails step machine machine' ∨
        ∃ a between, Yields step machine a between ∧ Fails (next a) between machine' := by
  constructor
  · rintro ⟨cause, h⟩
    rcases failsWith_bind.mp h with hstep | ⟨a, between, hstep, hnext⟩
    · exact .inl ⟨cause, hstep⟩
    · exact .inr ⟨a, between, hstep, cause, hnext⟩
  · rintro (⟨cause, hstep⟩ | ⟨a, between, hstep, cause, hnext⟩)
    · exact ⟨cause, failsWith_bind.mpr (.inl hstep)⟩
    · exact ⟨cause, failsWith_bind.mpr (.inr ⟨a, between, hstep, hnext⟩)⟩

@[simp] theorem fails_lift {step : StateM Machine α} :
    ¬Fails (ExceptT.lift step : MachineStep ε α) machine machine' := by
  simp [Fails]

@[simp] theorem fails_adapt {step : MachineStep ε α} {f : ε → ε'} :
    Fails (step.adapt f) machine machine' ↔ Fails step machine machine' := by
  constructor
  · rintro ⟨_, h⟩
    obtain ⟨cause, hstep, -⟩ := failsWith_adapt.mp h
    exact ⟨cause, hstep⟩
  · rintro ⟨cause, h⟩
    exact ⟨f cause, failsWith_adapt.mpr ⟨cause, h, rfl⟩⟩

/-- A result that does not come from the machine. -/
@[simp] theorem fails_liftExcept {result : Except ε α} :
    Fails (liftM result : MachineStep ε α) machine machine' ↔
      (∃ cause, result = .error cause) ∧ machine' = machine := by
  simp [Fails, eq_comm]

/-! ## However a step ends -/

/-- However the step ends, what it leaves behind satisfies `P`. -/
def Leaves (step : MachineStep ε α) (machine : Machine) (P : Machine → Prop) : Prop :=
  P (step.outcome machine).2

variable {P : Machine → Prop} {R : Machine → Machine → Prop}

theorem Leaves.of_yields {step : MachineStep ε α} {a : α} (h : Leaves step machine P)
    (hyields : Yields step machine a machine') : P machine' := by
  rw [Leaves, hyields] at h
  exact h

theorem Leaves.of_fails {step : MachineStep ε α} (h : Leaves step machine P)
    (hfails : Fails step machine machine') : P machine' := by
  obtain ⟨cause, hcause⟩ := hfails
  rw [Leaves, hcause] at h
  exact h

theorem Leaves.imp {step : MachineStep ε α} {Q : Machine → Prop} (h : Leaves step machine P)
    (himp : ∀ machine', P machine' → Q machine') : Leaves step machine Q :=
  himp _ h

theorem leaves_lift {step : StateM Machine α} :
    Leaves (ExceptT.lift step : MachineStep ε α) machine P ↔ P (step.run machine).run.2 := .rfl

/-- What cannot fail leaves behind what it ends well with. -/
theorem leaves_lift_of_yields {step : StateM Machine α}
    (h : ∀ a machine', Yields (ExceptT.lift step : MachineStep ε α) machine a machine' →
      P machine') :
    Leaves (ExceptT.lift step : MachineStep ε α) machine P :=
  h _ _ (yields_lift.mpr rfl)

theorem leaves_adapt {step : MachineStep ε α} {f : ε → ε'} :
    Leaves (step.adapt f) machine P ↔ Leaves step machine P := .rfl

theorem leaves_bind {step : MachineStep ε α} {next : α → MachineStep ε β}
    (hfails : ∀ machine', Fails step machine machine' → P machine')
    (hnext : ∀ a between, Yields step machine a between → Leaves (next a) between P) :
    Leaves (step >>= next) machine P := by
  unfold Leaves
  rw [outcome_bind]
  cases hstep : step.outcome machine with
  | mk result between =>
    cases result with
    | error cause => exact hfails between ⟨cause, hstep⟩
    | ok a => exact hnext a between hstep

/-- What is transitive holds of two steps if it holds of each. -/
theorem leaves_bind_of_trans [IsTrans Machine R] {step : MachineStep ε α}
    {next : α → MachineStep ε β} (hstep : Leaves step machine (R machine))
    (hnext : ∀ a between, Yields step machine a between → R machine between →
      Leaves (next a) between (R between)) :
    Leaves (step >>= next) machine (R machine) := by
  refine leaves_bind (fun _ => hstep.of_fails) fun a between hyields => ?_
  have hbetween := hstep.of_yields hyields
  exact (hnext a between hyields hbetween).imp fun _ => IsTrans.trans _ _ _ hbetween

/-! ## Steps that change files -/

/-- The files change as `F` says, and the environment does not change. -/
structure Machine.FilesChange (F : FileSystem → FileSystem → Prop) (machine machine' : Machine) :
    Prop where
  files : F machine.files machine'.files
  environment : machine'.environment = machine.environment

variable {F : FileSystem → FileSystem → Prop}

instance [IsPreorder FileSystem F] : IsPreorder Machine (Machine.FilesChange F) where
  refl machine := ⟨Std.Refl.refl machine.files, rfl⟩
  trans _ _ _ h h' := ⟨IsTrans.trans _ _ _ h.files h'.files, h'.environment.trans h.environment⟩

theorem Machine.FilesChange.mono {F' : FileSystem → FileSystem → Prop}
    (himp : ∀ fs fs', F fs fs' → F' fs fs') (h : machine.FilesChange F machine') :
    machine.FilesChange F' machine' :=
  ⟨himp _ _ h.files, h.environment⟩

/-- The files change as `F` says, and nothing else changes. -/
structure Machine.FilesOnly (F : FileSystem → FileSystem → Prop) (machine machine' : Machine) :
    Prop where
  files : F machine.files machine'.files
  others : machine' = { machine with files := machine'.files }

theorem Machine.FilesOnly.environment (h : machine.FilesOnly F machine') :
    machine'.environment = machine.environment := by
  rw [h.others]

theorem Machine.FilesOnly.input (h : machine.FilesOnly F machine') :
    machine'.input = machine.input := by
  rw [h.others]

/-- The files change once more. -/
theorem Machine.FilesOnly.withFiles {F' : FileSystem → FileSystem → Prop} {files : FileSystem}
    (h : machine.FilesOnly F machine') (hfiles : F' machine.files files) :
    machine.FilesOnly F' { machine' with files } :=
  ⟨hfiles, by rw [h.others]⟩

theorem Machine.FilesChange.of_filesOnly {F' : FileSystem → FileSystem → Prop}
    (himp : ∀ fs fs', F fs fs' → F' fs fs') (h : machine.FilesOnly F machine') :
    machine.FilesChange F' machine' :=
  ⟨himp _ _ h.files, h.environment⟩

instance [IsPreorder FileSystem F] : IsPreorder Machine (Machine.FilesOnly F) where
  refl machine := ⟨Std.Refl.refl machine.files, rfl⟩
  trans _ _ _ h h' := by
    refine ⟨IsTrans.trans _ _ _ h.files h'.files, ?_⟩
    rw [h'.others, h.others]

/-- A change is made to the files, or it fails and nothing is changed. -/
theorem Machine.run_change (step : FileSystem → Except FileError FileSystem) (machine : Machine) :
    ((Machine.change step).run machine).run =
      match step machine.files with
      | .error cause => (.error cause, machine)
      | .ok files => (.ok (), { machine with files }) := by
  cases hstep : step machine.files <;> simp [Machine.change, hstep]

theorem of_yields_change (step : FileSystem → Except FileError FileSystem)
    {result : Except FileError Unit}
    (h : Yields (ExceptT.lift (Machine.change step) : MachineStep ε (Except FileError Unit)) machine
      result machine') :
    (∃ files, step machine.files = .ok files ∧ result = .ok () ∧
        machine' = { machine with files }) ∨
      ∃ cause, step machine.files = .error cause ∧ result = .error cause ∧ machine' = machine := by
  rw [yields_lift, Machine.run_change] at h
  cases hstep : step machine.files with
  | error cause =>
    rw [hstep] at h
    cases h
    exact .inr ⟨cause, rfl, rfl, rfl⟩
  | ok files =>
    rw [hstep] at h
    cases h
    exact .inl ⟨files, rfl, rfl, rfl⟩

@[simp] theorem fails_readText {path : Path} :
    ¬Fails (Disk.readText path : MachineStep ε (Except FileError String)) machine machine' := by
  rintro ⟨cause, h⟩
  cases h

variable [IsPreorder FileSystem F]

theorem filesChange_refl (machine : Machine) : machine.FilesChange F machine :=
  Std.Refl.refl (r := Machine.FilesChange F) machine

theorem filesOnly_refl (machine : Machine) : machine.FilesOnly F machine :=
  Std.Refl.refl (r := Machine.FilesOnly F) machine

theorem leaves_change {step : FileSystem → Except FileError FileSystem}
    (h : ∀ files, step machine.files = .ok files → F machine.files files) :
    Leaves (ExceptT.lift (Machine.change step) : MachineStep ε (Except FileError Unit)) machine
      (machine.FilesOnly F) := by
  rw [leaves_lift, Machine.run_change]
  cases hstep : step machine.files with
  | error cause => exact filesOnly_refl machine
  | ok files => exact ⟨h files hstep, rfl⟩

/-! ## The host -/

theorem leaves_print (text : String) (machine : Machine) :
    Leaves (Host.print text : MachineStep ε Unit) machine (machine.FilesChange F) :=
  ⟨Std.Refl.refl machine.files, rfl⟩

@[simp] theorem fails_print {text : String} :
    ¬Fails (Host.print text : MachineStep ε Unit) machine machine' :=
  fails_lift

theorem yields_environment {environment : ProcessEnvironment} :
    Yields (Host.environment : MachineStep ε ProcessEnvironment) machine environment machine' ↔
      environment = machine.environment ∧ machine' = machine := by
  show (Except.ok machine.environment, machine) = _ ↔ _
  simp [eq_comm]

@[simp] theorem fails_environment :
    ¬Fails (Host.environment : MachineStep ε ProcessEnvironment) machine machine' :=
  fails_lift

theorem leaves_pipedInput (machine : Machine) :
    Leaves (Host.pipedInput : MachineStep ε (Option ByteArray)) machine
      (machine.FilesChange F) := by
  refine leaves_lift_of_yields fun found after h => ?_
  rcases of_yields_pipedInput h with ⟨content, -, -, -, rfl⟩ | ⟨-, -, rfl⟩
  · exact ⟨Std.Refl.refl machine.files, rfl⟩
  · exact filesChange_refl after

theorem leaves_ask (question : String) (machine : Machine) :
    Leaves (Host.ask question : MachineStep ε (Option ByteArray)) machine
      (machine.FilesChange F) := by
  refine leaves_lift_of_yields fun answer after h => ?_
  rcases of_yields_ask h with ⟨typed, -, -, rfl⟩ | ⟨-, -, rfl⟩
  · exact ⟨Std.Refl.refl machine.files, rfl⟩
  · exact filesChange_refl after

end OrderedEnv
