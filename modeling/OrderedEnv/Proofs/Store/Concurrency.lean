import Mathlib.Logic.Function.Basic
import OrderedEnv.Proofs.Store.Operation

/-!
# Stores that are saved at the same time

A save is two steps, and steps of other saves to the same path may come between them. The name of
the temporary file comes from that of the store, so all of them use the same one. Whoever moves it
moves what was written last, and to whoever comes next it is gone.

So a save that is not interrupted ends well, and whatever happens there is never a part of a text at
the path, or a mixture (`Savers.run_saves_whole`). But a save may end well with the text of somebody
else, and it may fail after its text was written (`Savers.run_saves_other`).
-/

namespace OrderedEnv.Store

open FileSystem

/-! ## Saving step by step -/

/-- How far a save is. -/
inductive Progress where
  | ready
  /-- The text was written to the temporary file. -/
  | staged
  | ended (result : Except StoreError Unit)

namespace Progress

/-- Takes the next step of a save. -/
def advance (format : StoreFormat) (store : Store) : Progress → StateM Machine Progress
  | ready =>
    match print format store.declarations with
    | .error cause => return ended (.error cause)
    | .ok text => do
      match ← stage store.path text with
      | .error cause => return ended (.error (.unwritable store.path cause))
      | .ok () => return staged
  | staged => do
    match ← commit store.path with
    | .error cause => return ended (.error (.unwritable store.path cause))
    | .ok () => return ended (.ok ())
  | ended result => return ended result

/-- What the next step gives, and the machine that it leaves behind. -/
def step (format : StoreFormat) (store : Store) (progress : Progress) (machine : Machine) :
    Progress × Machine :=
  ((progress.advance format store).run machine).run

/-- The save ended well. -/
def isSaved : Progress → Bool
  | ended (.ok ()) => true
  | _ => false

/-- Why the save failed to write. -/
def fileError? : Progress → Option FileError
  | ended (.error (.unwritable _ cause)) => some cause
  | _ => none

end Progress

variable {format : StoreFormat} {path : Path} {store : Store} {machine machine' : Machine}
  {fs fs' : FileSystem} {text : String} {temporary place : Location}

theorem Progress.step_ready (hprint : print format store.declarations = .ok text) :
    ready.step format store machine =
      match machine.files.write (temporaryPath store.path) text.toUTF8 with
      | .error cause => (ended (.error (.unwritable store.path cause)), machine)
      | .ok files => (staged, { machine with files }) := by
  have hrun := run_stage store.path text machine
  cases hwrite : machine.files.write (temporaryPath store.path) text.toUTF8 <;>
    · rw [hwrite] at hrun
      simp [step, advance, hprint, hrun]

theorem Progress.step_staged :
    staged.step format store machine =
      match machine.files.rename (temporaryPath store.path) store.path with
      | .error cause => (ended (.error (.unwritable store.path cause)), machine)
      | .ok files => (ended (.ok ()), { machine with files }) := by
  have hrun := run_commit store.path machine
  cases hrename : machine.files.rename (temporaryPath store.path) store.path <;>
    · rw [hrename] at hrun
      simp [step, advance, hrun]

@[simp] theorem Progress.step_ended {result : Except StoreError Unit} :
    (ended result).step format store machine = (ended result, machine) := rfl

/-- **Two steps without others in between are a save.** -/
theorem Progress.step_step_ready (format : StoreFormat) (store : Store) (machine : Machine) :
    let first := ready.step format store machine
    first.1.step format store first.2 =
      (ended (MachineStep.outcome (save format store) machine).1,
        (MachineStep.outcome (save format store) machine).2) := by
  intro first
  cases hprint : print format store.declarations with
  | error cause =>
    have hfirst : first = (ended (.error cause), machine) := by
      simp only [first, step, advance, hprint]
      rfl
    rw [hfirst, step_ended, save, hprint, outcome_bind]
    rfl
  | ok text =>
    rw [outcome_save hprint, show first = _ from step_ready hprint]
    cases machine.files.write (temporaryPath store.path) text.toUTF8 with
    | error cause => rfl
    | ok files =>
      dsimp only
      rw [step_staged]
      dsimp only
      cases files.rename (temporaryPath store.path) store.path <;> rfl

/-! ## What can be saved -/

/-- Nothing stands in the way of the two steps of a save, as long as the temporary file is there. -/
structure Savable (path : Path) (fs : FileSystem) (temporary place : Location) : Prop where
  resolve_temporary : fs.resolve (temporaryPath path) = .ok temporary
  resolve : fs.resolve path = .ok place
  temporary_notDirectory : fs.get? temporary ≠ some .directory
  notDirectory : fs.get? place ≠ some .directory
  endsInName_temporary : FileSystem.endsInName (temporaryPath path) = true
  endsInName : FileSystem.endsInName path = true
  endsInSlash : path.endsInSlash = false

theorem endsInSlash_temporaryPath (path : Path) : (temporaryPath path).endsInSlash = false := by
  simp [Path.endsInSlash, temporaryPath, Path.appendBytes, temporarySuffix, slash]

namespace Savable

theorem temporary_ne (h : Savable path fs temporary place) : temporary ≠ place := by
  obtain ⟨other, hother, hne⟩ := resolve_appendBytes (by decide) (by decide)
    (isEmpty_of_resolve h.resolve) h.resolve_temporary
  obtain rfl : other = place := Except.ok.inj (hother.symm.trans h.resolve)
  exact hne.symm

/-- A path can be saved to if somebody did it. -/
theorem of_replaces (h : Replaces format store machine machine') :
    ∃ temporary place, Savable store.path machine.files temporary place := by
  obtain ⟨text, between, -, hstage, hcommit⟩ := h
  obtain ⟨written, hwrite, rfl⟩ := yields_stage.mp hstage
  obtain ⟨moved, hrename, -⟩ := yields_commit.mp hcommit
  obtain ⟨hname, temporary, hw⟩ := write_eq_ok_iff.mp hwrite
  obtain ⟨-, hname', -, origin, place, content, hr⟩ := rename_eq_ok_iff.mp hrename
  -- the store is where it was before the temporary file was written
  obtain ⟨other, hother, hne⟩ := resolve_appendBytes (by decide) (by decide)
    (isEmpty_of_resolve hr.resolve_target) hw.resolve
  obtain rfl : other = place := Except.ok.inj
    ((resolve_of_keepsDirectories hw.keepsDirectories hother).symm.trans hr.resolve_target)
  have hplace : machine.files.get? other ≠ some .directory := by
    have hwritten := hr.notDirectory
    rwa [hw.eq, get?_insert _ (ne_nil_of_get?_ne hw.notDirectory), if_neg hne.symm] at hwritten
  exact ⟨temporary, other, hw.resolve, hother, hw.notDirectory, hplace, hname, hname',
    hr.endsInSlash⟩

theorem writes (h : Savable path fs temporary place) (content : ByteArray) :
    fs.Writes (temporaryPath path) content (fs.insert temporary (.file content)) temporary :=
  ⟨h.resolve_temporary, h.temporary_notDirectory, endsInSlash_temporaryPath path, rfl⟩

theorem renames (h : Savable path fs temporary place) {content : ByteArray}
    (hfile : fs.get? temporary = some (.file content)) :
    fs.Renames (temporaryPath path) path ((fs.erase temporary).insert place (.file content))
      temporary place content :=
  ⟨h.resolve_temporary, h.resolve, hfile, h.notDirectory, h.endsInSlash, rfl⟩

theorem write_eq (h : Savable path fs temporary place) (content : ByteArray) :
    fs.write (temporaryPath path) content = .ok (fs.insert temporary (.file content)) :=
  write_eq_ok_iff.mpr ⟨h.endsInName_temporary, temporary, h.writes content⟩

theorem rename_eq_of_file (h : Savable path fs temporary place) {content : ByteArray}
    (hfile : fs.get? temporary = some (.file content)) :
    fs.rename (temporaryPath path) path =
      .ok ((fs.erase temporary).insert place (.file content)) :=
  rename_eq_ok_iff.mpr ⟨h.endsInName_temporary, h.endsInName, endsInSlash_temporaryPath path,
    temporary, place, content, h.renames hfile⟩

theorem rename_eq_of_none (h : Savable path fs temporary place)
    (hnone : fs.get? temporary = none) :
    fs.rename (temporaryPath path) path = .error .notFound :=
  rename_of_get?_eq_none h.endsInName_temporary h.endsInName h.resolve_temporary h.resolve hnone

theorem of_keepsDirectories (h : Savable path fs temporary place) (hkeeps : fs.KeepsDirectories fs')
    (htemporary : fs'.get? temporary ≠ some .directory)
    (hplace : fs'.get? place ≠ some .directory) : Savable path fs' temporary place :=
  { h with
    resolve_temporary := resolve_of_keepsDirectories hkeeps h.resolve_temporary
    resolve := resolve_of_keepsDirectories hkeeps h.resolve
    temporary_notDirectory := htemporary
    notDirectory := hplace }

/-- After the first step, the other savers find everything as before but the temporary file. -/
theorem insert (h : Savable path fs temporary place) (content : ByteArray) :
    Savable path (fs.insert temporary (.file content)) temporary place ∧
      (fs.insert temporary (.file content)).get? temporary = some (.file content) := by
  have hget := (h.writes content).get?_place
  refine ⟨h.of_keepsDirectories (h.writes content).keepsDirectories (by simp [hget]) ?_, hget⟩
  rw [get?_insert fs (ne_nil_of_get?_ne h.temporary_notDirectory), if_neg h.temporary_ne]
  exact h.notDirectory

/-- After the second step, there is no temporary file. -/
theorem rename (h : Savable path fs temporary place) {content : ByteArray}
    (hfile : fs.get? temporary = some (.file content)) :
    Savable path ((fs.erase temporary).insert place (.file content)) temporary place ∧
      ((fs.erase temporary).insert place (.file content)).get? temporary = none := by
  have hplace := ne_nil_of_get?_ne h.notDirectory
  have hgone : ((fs.erase temporary).insert place (.file content)).get? temporary = none := by
    rw [get?_insert _ hplace, if_neg h.temporary_ne.symm,
      get?_erase _ (ne_nil_of_get?_ne h.temporary_notDirectory), if_pos rfl]
  refine ⟨h.of_keepsDirectories (h.renames hfile).keepsDirectories (by simp [hgone]) ?_, hgone⟩
  rw [get?_insert _ hplace, if_pos rfl]
  simp

end Savable

/-! ## Savers -/

/-- Some savers, each of which saves a list of declarations to the same path. -/
structure Savers (ι : Type) where
  /-- The machine that they share. -/
  machine : Machine
  /-- How far each of them is. -/
  progress : ι → Progress
  /-- Who wrote the temporary file last, unless it was moved since then. -/
  writer : Option ι

namespace Savers

variable {ι : Type} {savers : Savers ι} {lists : ι → List Declaration} {i j : ι}

/-- Nobody took a step. -/
def start (machine : Machine) : Savers ι := ⟨machine, fun _ => .ready, none⟩

variable [DecidableEq ι]

/-- A saver takes its next step. -/
def turn (format : StoreFormat) (path : Path) (lists : ι → List Declaration) (savers : Savers ι)
    (i : ι) : Savers ι :=
  let next := (savers.progress i).step format ⟨path, lists i⟩ savers.machine
  { machine := next.2
    progress := Function.update savers.progress i next.1
    writer :=
      match savers.progress i, next.1 with
      | .ready, .staged => some i
      | .staged, .ended (.ok ()) => none
      | _, _ => savers.writer }

/-- The savers take steps, in the order of a list. -/
def run (format : StoreFormat) (path : Path) (lists : ι → List Declaration) (savers : Savers ι)
    (schedule : List ι) : Savers ι :=
  schedule.foldl (turn format path lists) savers

/-! ## One turn -/

theorem turn_ready (hsavable : Savable path savers.machine.files temporary place)
    (hprint : print format (lists i) = .ok text) (hi : savers.progress i = .ready) :
    savers.turn format path lists i =
      { machine := { savers.machine with
          files := savers.machine.files.insert temporary (.file text.toUTF8) }
        progress := Function.update savers.progress i .staged
        writer := some i } := by
  have hstep : Progress.ready.step format ⟨path, lists i⟩ savers.machine = _ :=
    Progress.step_ready hprint
  rw [hsavable.write_eq] at hstep
  simp only [turn, hi, hstep]

theorem turn_staged_of_file (hsavable : Savable path savers.machine.files temporary place)
    {content : ByteArray} (hfile : savers.machine.files.get? temporary = some (.file content))
    (hi : savers.progress i = .staged) :
    savers.turn format path lists i =
      { machine := { savers.machine with
          files := (savers.machine.files.erase temporary).insert place (.file content) }
        progress := Function.update savers.progress i (.ended (.ok ()))
        writer := none } := by
  have hstep : Progress.staged.step format ⟨path, lists i⟩ savers.machine = _ :=
    Progress.step_staged
  rw [hsavable.rename_eq_of_file hfile] at hstep
  simp only [turn, hi, hstep]

theorem turn_staged_of_none (hsavable : Savable path savers.machine.files temporary place)
    (hnone : savers.machine.files.get? temporary = none) (hi : savers.progress i = .staged) :
    savers.turn format path lists i =
      { savers with
        progress := Function.update savers.progress i
          (.ended (.error (.unwritable path .notFound))) } := by
  have hstep : Progress.staged.step format ⟨path, lists i⟩ savers.machine = _ :=
    Progress.step_staged
  rw [hsavable.rename_eq_of_none hnone] at hstep
  simp only [turn, hi, hstep]

theorem turn_ended {result : Except StoreError Unit} (hi : savers.progress i = .ended result) :
    savers.turn format path lists i = savers := by
  simp only [turn, hi, Progress.step_ended]
  rw [← hi, Function.update_eq_self]

/-! ## Many turns -/

/--
**What holds after every turn.**

The files were `fs` when the savers started. The temporary file holds the text of the last saver who
wrote it; it is gone when somebody moved it and somebody else still waits to do so.
-/
structure Consistent (format : StoreFormat) (path : Path) (lists : ι → List Declaration)
    (fs : FileSystem) (temporary place : Location) (savers : Savers ι) : Prop where
  savable : Savable path savers.machine.files temporary place
  written : ∀ j, savers.writer = some j → ∃ text, print format (lists j) = .ok text ∧
    savers.machine.files.get? temporary = some (.file text.toUTF8)
  gone : savers.writer = none → ∀ j, savers.progress j = .staged →
    savers.machine.files.get? temporary = none
  failed : ∀ j cause, savers.progress j = .ended (.error cause) → cause = .unwritable path .notFound
  whole : savers.machine.files.lookup path = fs.lookup path ∨
    ∃ j, Holds format path savers.machine.files (lists j)

omit [DecidableEq ι] in
theorem consistent_start (hsavable : Savable path machine.files temporary place) :
    Consistent format path lists machine.files temporary place (start machine) where
  savable := hsavable
  written := fun _ hj => nomatch hj
  gone := fun _ _ hj => nomatch hj
  failed := fun _ _ hj => nomatch hj
  whole := .inl rfl

namespace Consistent

/-- The text is moved over the store, and it is that of the last writer. -/
theorem turn_of_writer (h : Consistent format path lists fs temporary place savers)
    (hi : savers.progress i = .staged) (hj : savers.writer = some j) :
    ∃ content, savers.machine.files.get? temporary = some (.file content) ∧
      savers.turn format path lists i =
        { machine := { savers.machine with
            files := (savers.machine.files.erase temporary).insert place (.file content) }
          progress := Function.update savers.progress i (.ended (.ok ()))
          writer := none } ∧
      Holds format path (savers.turn format path lists i).machine.files (lists j) := by
  obtain ⟨text, hprint, hfile⟩ := h.written j hj
  have hturn : savers.turn format path lists i = _ := turn_staged_of_file h.savable hfile hi
  refine ⟨text.toUTF8, hfile, hturn, text, print_eq_ok_iff.mp hprint, ?_⟩
  rw [hturn]
  exact (h.savable.renames hfile).read_eq

omit [DecidableEq ι] in
/-- The path leads to what it led to, and it cannot be told from the files who saves next. -/
theorem whole_of_lookup (h : Consistent format path lists fs temporary place savers)
    {files : FileSystem} (hlookup : files.lookup path = savers.machine.files.lookup path) :
    files.lookup path = fs.lookup path ∨ ∃ j, Holds format path files (lists j) :=
  h.whole.imp hlookup.trans fun ⟨j, hj⟩ => ⟨j, hj.congr hlookup⟩

theorem lookup_turn_ready (h : Consistent format path lists fs temporary place savers)
    (hprint : print format (lists i) = .ok text) (hi : savers.progress i = .ready) :
    (savers.turn format path lists i).machine.files.lookup path =
      savers.machine.files.lookup path := by
  rw [turn_ready h.savable hprint hi]
  exact lookup_write_temporaryPath (h.savable.write_eq _)

/-- Nobody fails for another reason if the saver whose turn it is does not. -/
theorem failed_update (h : Consistent format path lists fs temporary place savers)
    {progress : Progress}
    (hprogress : ∀ cause, progress = .ended (.error cause) → cause = .unwritable path .notFound) :
    ∀ j cause, Function.update savers.progress i progress j = .ended (.error cause) →
      cause = .unwritable path .notFound := by
  intro j cause hj
  rcases eq_or_ne j i with rfl | hne
  · exact hprogress cause (by simpa using hj)
  · exact h.failed j cause (by simpa [hne] using hj)

/-- **A turn changes nothing about it.** -/
theorem turn (h : Consistent format path lists fs temporary place savers)
    (hprint : ∀ j, ∃ text, print format (lists j) = .ok text) (i : ι) :
    Consistent format path lists fs temporary place (savers.turn format path lists i) := by
  cases hi : savers.progress i with
  | ready =>
    obtain ⟨text, htext⟩ := hprint i
    have hlookup := h.lookup_turn_ready htext hi
    rw [turn_ready h.savable htext hi] at hlookup ⊢
    obtain ⟨hsavable, hfile⟩ := h.savable.insert text.toUTF8
    refine ⟨hsavable, ?_, fun hnone => (nomatch hnone), h.failed_update (by simp),
      h.whole_of_lookup hlookup⟩
    rintro _ ⟨⟩
    exact ⟨text, htext, hfile⟩
  | staged =>
    cases hwriter : savers.writer with
    | some j =>
      obtain ⟨content, hfile, hturn, hholds⟩ := h.turn_of_writer hi hwriter
      obtain ⟨hsavable, hgone⟩ := h.savable.rename hfile
      rw [hturn] at hholds ⊢
      exact ⟨hsavable, fun _ hj => (nomatch hj), fun _ _ _ => hgone, h.failed_update (by simp),
        .inr ⟨j, hholds⟩⟩
    | none =>
      rw [turn_staged_of_none h.savable (h.gone hwriter i hi) hi]
      refine ⟨h.savable, h.written, fun hnone j hj => ?_, h.failed_update (by simp [eq_comm]),
        h.whole⟩
      rcases eq_or_ne j i with rfl | hne
      · simp at hj
      · exact h.gone hnone j (by simpa [hne] using hj)
  | ended result => rwa [turn_ended hi]

theorem run (h : Consistent format path lists fs temporary place savers)
    (hprint : ∀ j, ∃ text, print format (lists j) = .ok text) (schedule : List ι) :
    Consistent format path lists fs temporary place (savers.run format path lists schedule) := by
  induction schedule generalizing savers with
  | nil => exact h
  | cons i schedule ih => exact ih (h.turn hprint i)

end Consistent

/--
**Whatever the order of their steps, savers leave a whole text behind.**

The savers share a path to which each of them could save alone. After any steps of theirs the path
leads to what was there at the start, or to the whole text of one of them, and a save that failed
did so as the temporary file was gone. A saver who takes both steps without others in between ends
well, with its own text at the path. When others come in between, the second step moves the text of
whoever wrote last. If that one was moved already, it fails and changes nothing.
-/
theorem run_saves_whole (lists : ι → List Declaration)
    (hable : ∀ i, ∃ after, Yields (save format ⟨path, lists i⟩) machine () after)
    (schedule : List ι) (i : ι) :
    let savers := (start machine).run format path lists schedule
    let next := savers.turn format path lists i
    (savers.machine.files.lookup path = machine.files.lookup path ∨
        ∃ j, Holds format path savers.machine.files (lists j)) ∧
      (∀ cause, savers.progress i = .ended (.error cause) → cause = .unwritable path .notFound) ∧
      (savers.progress i = .ready →
        next.progress i = .staged ∧ next.writer = some i ∧
        next.machine.files.lookup path = savers.machine.files.lookup path ∧
        (next.turn format path lists i).progress i = .ended (.ok ()) ∧
        Holds format path (next.turn format path lists i).machine.files (lists i)) ∧
      (∀ j, savers.progress i = .staged → savers.writer = some j →
        next.progress i = .ended (.ok ()) ∧ next.writer = none ∧
        Holds format path next.machine.files (lists j)) ∧
      (savers.progress i = .staged → savers.writer = none →
        next.progress i = .ended (.error (.unwritable path .notFound)) ∧ next.writer = none ∧
        next.machine = savers.machine) := by
  intro savers next
  have hreplaces : ∀ j, ∃ after, Replaces format ⟨path, lists j⟩ machine after := fun j =>
    (hable j).imp fun _ => yields_save_iff.mp
  have hprint : ∀ j, ∃ text, print format (lists j) = .ok text := fun j =>
    let ⟨_, text, _, htext, _⟩ := hreplaces j
    ⟨text, htext⟩
  obtain ⟨after, hafter⟩ := hreplaces i
  obtain ⟨temporary, place, hsavable⟩ := Savable.of_replaces hafter
  have h : Consistent format path lists machine.files temporary place savers :=
    (consistent_start hsavable).run hprint schedule
  have hnext : Consistent format path lists machine.files temporary place next :=
    h.turn hprint i
  refine ⟨h.whole, h.failed i, fun hi => ?_, fun j hi hj => ?_, fun hi hnone => ?_⟩
  · obtain ⟨text, htext⟩ := hprint i
    have hready : next = _ := turn_ready h.savable htext hi
    have hstaged : next.progress i = .staged := by simp [hready]
    have hwriter : next.writer = some i := by rw [hready]
    obtain ⟨_, -, hturn, hholds⟩ := hnext.turn_of_writer hstaged hwriter
    exact ⟨hstaged, hwriter, h.lookup_turn_ready htext hi, by simp [hturn], hholds⟩
  · obtain ⟨_, -, hturn, hholds⟩ := h.turn_of_writer hi hj
    have hmoved : next = _ := hturn
    exact ⟨by simp [hmoved], by rw [hmoved], hholds⟩
  · have hfailed : next = _ := turn_staged_of_none h.savable (h.gone hnone i hi) hi
    exact ⟨by simp [hfailed], by rw [hfailed, hnone], by rw [hfailed]⟩

/-- Two lists for two savers. -/
def sampleLists : Bool → List Declaration
  | false => []
  | true => [{ key := "HOST", value := "example.com" }]

theorem sampleLists_able (i : Bool) :
    ∃ after, Yields (save Edit.sampleFormat ⟨.ofText "store.yml", sampleLists i⟩)
      Edit.bareMachine () after := by
  cases i <;> exact ⟨_, yields_of_toBool (by decide +kernel)⟩

/-- Of two savers, one saves while the other waits for its turn. -/
theorem run_saves_whole_uninterrupted :
    let path := Path.ofText "store.yml"
    let savers := (start Edit.bareMachine).run Edit.sampleFormat path sampleLists [false]
    let next := savers.turn Edit.sampleFormat path sampleLists true
    (∀ i, ∃ after,
        Yields (save Edit.sampleFormat ⟨path, sampleLists i⟩) Edit.bareMachine () after) ∧
      savers.progress true = .ready ∧
      (next.turn Edit.sampleFormat path sampleLists true).progress true = .ended (.ok ()) ∧
      Holds Edit.sampleFormat path (next.turn Edit.sampleFormat path sampleLists true).machine.files
        (sampleLists true) := by
  intro path savers next
  have hready : savers.progress true = .ready := rfl
  obtain ⟨-, -, -, hended, hholds⟩ :=
    (run_saves_whole sampleLists sampleLists_able [false] true).2.2.1 hready
  exact ⟨sampleLists_able, hready, hended, hholds⟩

/-- Both savers write, and then both move what was written: the first one moves the text of the
second, which finds nothing to move. -/
theorem run_saves_other :
    let path := Path.ofText "store.yml"
    let moved :=
      (start Edit.bareMachine).run Edit.sampleFormat path sampleLists [false, true, false]
    let final := moved.turn Edit.sampleFormat path sampleLists true
    (∀ i, ∃ after,
        Yields (save Edit.sampleFormat ⟨path, sampleLists i⟩) Edit.bareMachine () after) ∧
      (moved.progress false).isSaved = true ∧
      moved.machine.files.read path = .ok "envs:\n- HOST: example.com\n".toUTF8 ∧
      ¬Holds Edit.sampleFormat path moved.machine.files (sampleLists false) ∧
      (final.progress true).fileError? = some .notFound := by
  intro path moved final
  have hread : moved.machine.files.read path = .ok "envs:\n- HOST: example.com\n".toUTF8 := by
    decide +kernel
  refine ⟨sampleLists_able, by decide +kernel, hread, ?_, by decide +kernel⟩
  rintro ⟨text, htext, htext'⟩
  obtain rfl : "envs: []\n" = text := Option.some.inj htext
  rw [hread] at htext'
  exact absurd htext' (by decide +kernel)

end Savers

end OrderedEnv.Store
