import OrderedEnv.Proofs.FileSystem.Change
import OrderedEnv.Proofs.Machine.Ending
import OrderedEnv.Proofs.Store.Saving

/-!
# Stores when something fails

The text of a store goes to a temporary file first, and the path of the temporary file leads to
another place than that of the store (`lookup_write_temporaryPath`). So as long as the temporary file
was not moved, what is at the path of the store is what was there before, whatever fails.
-/

namespace OrderedEnv.Store

open FileSystem

variable {format : StoreFormat} {path : Path} {store : Store} {machine machine' : Machine}
  {fs fs' : FileSystem}

/-- The paths where saving a store may show. -/
def paths (path : Path) : Set Path := {path, temporaryPath path}

/-! ## Saving -/

theorem lookup_write_temporaryPath {content : ByteArray}
    (h : fs.write (temporaryPath path) content = .ok fs') : fs'.lookup path = fs.lookup path := by
  cases hempty : path.isEmpty with
  | true => rw [lookup_of_isEmpty hempty, lookup_of_isEmpty hempty]
  | false =>
    obtain ⟨place, hw⟩ := exists_writes h
    obtain ⟨other, hother, hne⟩ := resolve_appendBytes (by decide) (by decide) hempty hw.resolve
    refine lookup_eq_of_get?_eq hw.keepsDirectories hother ?_
    rw [hw.eq, get?_insert fs (ne_nil_of_get?_ne hw.notDirectory), if_neg hne.symm]

theorem leaves_stage (path : Path) (text : String) (machine : Machine) :
    Leaves (stage path text : MachineStep StoreError (Except FileError Unit)) machine
      (machine.FilesOnly (ChangesOnly (paths path))) := by
  refine leaves_change fun files h => (changesOnly_write h).mono ?_
  exact Set.subset_insert path {temporaryPath path}

theorem leaves_commit (path : Path) (machine : Machine) :
    Leaves (commit path : MachineStep StoreError (Except FileError Unit)) machine
      (machine.FilesOnly (ChangesOnly (paths path))) := by
  refine leaves_change fun files h => (changesOnly_rename h).mono ?_
  exact (Set.pair_comm (temporaryPath path) path).subset

theorem leaves_save (format : StoreFormat) (store : Store) (machine : Machine) :
    Leaves (save format store : MachineStep StoreError Unit) machine
      (machine.FilesOnly (ChangesOnly (paths store.path))) := by
  refine leaves_bind_of_trans (filesOnly_refl machine) fun text between _ _ => ?_
  refine leaves_bind_of_trans (leaves_stage store.path text between) fun staged between _ _ => ?_
  cases staged with
  | error cause => exact filesOnly_refl between
  | ok _ =>
    refine leaves_bind_of_trans (leaves_commit store.path between) fun committed after _ _ => ?_
    cases committed <;> exact filesOnly_refl after

theorem run_stage (path : Path) (text : String) (machine : Machine) :
    ((stage path text : StateM Machine (Except FileError Unit)).run machine).run =
      match machine.files.write (temporaryPath path) text.toUTF8 with
      | .error cause => (.error cause, machine)
      | .ok files => (.ok (), { machine with files }) :=
  Machine.run_change (fun files => files.write (temporaryPath path) text.toUTF8) machine

theorem run_commit (path : Path) (machine : Machine) :
    ((commit path : StateM Machine (Except FileError Unit)).run machine).run =
      match machine.files.rename (temporaryPath path) path with
      | .error cause => (.error cause, machine)
      | .ok files => (.ok (), { machine with files }) :=
  Machine.run_change (fun files => files.rename (temporaryPath path) path) machine

/-- What a save does, step by step. -/
theorem outcome_save (hprint : print format store.declarations = .ok text) :
    MachineStep.outcome (save format store) machine =
      match machine.files.write (temporaryPath store.path) text.toUTF8 with
      | .error cause => (.error (.unwritable store.path cause), machine)
      | .ok files =>
        match files.rename (temporaryPath store.path) store.path with
        | .error cause => (.error (.unwritable store.path cause), { machine with files })
        | .ok files => (.ok (), { machine with files }) := by
  have hstage : Yields (stage store.path text : MachineStep StoreError _) machine _ _ :=
    yields_lift.mpr (run_stage store.path text machine)
  rw [save, hprint, outcome_bind]
  show MachineStep.outcome (_ >>= _) machine = _
  rw [outcome_bind, hstage]
  cases machine.files.write (temporaryPath store.path) text.toUTF8 with
  | error cause => rfl
  | ok files =>
    have hcommit :
        Yields (commit store.path : MachineStep StoreError _) { machine with files } _ _ :=
      yields_lift.mpr (run_commit store.path { machine with files })
    show MachineStep.outcome (_ >>= _) _ = _
    rw [outcome_bind, hcommit]
    dsimp only
    cases files.rename (temporaryPath store.path) store.path <;> rfl

/-- **When a store cannot be saved, what is at its path is what was there before.** -/
theorem lookup_of_fails_save
    (h : Fails (save format store : MachineStep StoreError Unit) machine machine') :
    machine'.files.lookup store.path = machine.files.lookup store.path := by
  rcases fails_bind.mp h with hprint | ⟨text, between, hprint, hstep⟩
  · rw [(fails_liftExcept.mp hprint).2]
  obtain ⟨-, rfl⟩ := yields_liftExcept.mp hprint
  rcases fails_bind.mp hstep with hstage | ⟨staged, after, hstage, hrest⟩
  · exact absurd hstage fails_lift
  rcases of_yields_change (fun files => files.write (temporaryPath store.path) text.toUTF8) hstage
    with ⟨files, hwrite, rfl, rfl⟩ | ⟨cause, -, rfl, rfl⟩
  · rcases fails_bind.mp hrest with hcommit | ⟨committed, moved, hcommit, hend⟩
    · exact absurd hcommit fails_lift
    rcases of_yields_change (fun files => files.rename (temporaryPath store.path) store.path)
      hcommit with ⟨files, -, rfl, rfl⟩ | ⟨cause, -, rfl, rfl⟩
    · exact absurd hend fails_pure
    · -- the text was written and not moved
      rw [fails_throw.mp hend]
      exact lookup_write_temporaryPath hwrite
  · rw [fails_throw.mp hrest]

/-! ## Stores that are made -/

theorem leaves_saveEmpty (format : StoreFormat) (path : Path) (machine : Machine) :
    Leaves (saveEmpty format path : MachineStep StoreError Store) machine
      (machine.FilesOnly (ChangesOnly (paths path))) :=
  leaves_bind_of_trans (leaves_save format (empty path) machine)
    fun _ between _ _ => filesOnly_refl between

theorem lookup_of_fails_saveEmpty
    (h : Fails (saveEmpty format path : MachineStep StoreError Store) machine machine') :
    machine'.files.lookup path = machine.files.lookup path := by
  rcases fails_bind.mp h with hsave | ⟨_, between, -, hpure⟩
  · exact lookup_of_fails_save hsave
  · exact absurd hpure fails_pure

theorem leaves_init (format : StoreFormat) (path : Path) (machine : Machine) :
    Leaves (init format path : MachineStep StoreError Store) machine
      (machine.FilesOnly (ChangesOnly (paths path))) := by
  refine leaves_bind_of_trans (filesOnly_refl machine) fun present between _ _ => ?_
  split
  · exact filesOnly_refl between
  · exact leaves_saveEmpty format path between

theorem lookup_of_fails_init
    (h : Fails (init format path : MachineStep StoreError Store) machine machine') :
    machine'.files.lookup path = machine.files.lookup path := by
  rcases fails_bind.mp h with hpresent | ⟨present, between, hpresent, hrest⟩
  · exact absurd hpresent fails_lift
  obtain ⟨-, rfl⟩ := yields_isPresent.mp hpresent
  split at hrest
  · rw [fails_throw.mp hrest]
  · exact lookup_of_fails_saveEmpty hrest

theorem leaves_clear (format : StoreFormat) (path : Path) (machine : Machine) :
    Leaves (clear format path : MachineStep StoreError Store) machine
      (machine.FilesOnly (ChangesOnly (paths path))) := by
  refine leaves_bind_of_trans (filesOnly_refl machine) fun present between _ _ => ?_
  split
  · exact leaves_saveEmpty format path between
  · exact filesOnly_refl between

theorem lookup_of_fails_clear
    (h : Fails (clear format path : MachineStep StoreError Store) machine machine') :
    machine'.files.lookup path = machine.files.lookup path := by
  rcases fails_bind.mp h with hpresent | ⟨present, between, hpresent, hrest⟩
  · exact absurd hpresent fails_lift
  obtain ⟨-, rfl⟩ := yields_isPresent.mp hpresent
  split at hrest
  · exact lookup_of_fails_saveEmpty hrest
  · rw [fails_throw.mp hrest]

/-! ## Stores that are loaded -/

/-- Loading changes nothing, whether it fails or not. -/
theorem leaves_load (format : StoreFormat) (path : Path) (machine : Machine) :
    Leaves (load format path : MachineStep StoreError Store) machine (· = machine) := by
  refine leaves_bind (fun _ h => absurd h fails_readText) fun found between hread => ?_
  obtain ⟨-, rfl⟩ := yields_readText.mp hread
  split
  · rfl
  · rfl
  · refine leaves_bind (fun _ h => (fails_liftExcept.mp h).2) fun declarations after hparse => ?_
    exact (yields_liftExcept.mp hparse).2.symm

/-- What is at the path of a store is what was there before, or an empty store where nothing was. -/
inductive Spared (format : StoreFormat) (path : Path) (fs fs' : FileSystem) : Prop
  | kept (h : fs'.lookup path = fs.lookup path)
  | made (missing : (fs.lookup path).toBool = false) (holds : Holds format path fs' [])

theorem Spared.congr {fs'' : FileSystem} (h : fs''.lookup path = fs'.lookup path)
    (hspared : Spared format path fs fs') : Spared format path fs fs'' := by
  cases hspared with
  | kept hkept => exact .kept (h.trans hkept)
  | made missing holds => exact .made missing (holds.congr h)

theorem Spared.lookup_eq (hspared : Spared format path fs fs')
    (h : (fs.lookup path).toBool = true) : fs'.lookup path = fs.lookup path := by
  cases hspared with
  | kept hkept => exact hkept
  | made missing holds => exact absurd (h.symm.trans missing) (by decide)

theorem leaves_loadOrInit (format : StoreFormat) (path : Path) (machine : Machine) :
    Leaves (loadOrInit format path : MachineStep StoreError Store) machine
      (machine.FilesOnly (ChangesOnly (paths path))) := by
  refine leaves_bind_of_trans (filesOnly_refl machine) fun present between _ _ => ?_
  split
  · refine (leaves_load format path between).imp ?_
    rintro _ rfl
    exact filesOnly_refl _
  · exact leaves_init format path between

theorem lookup_of_fails_loadOrInit
    (h : Fails (loadOrInit format path : MachineStep StoreError Store) machine machine') :
    machine'.files.lookup path = machine.files.lookup path := by
  rcases fails_bind.mp h with hpresent | ⟨present, between, hpresent, hrest⟩
  · exact absurd hpresent fails_lift
  obtain ⟨-, rfl⟩ := yields_isPresent.mp hpresent
  split at hrest
  · rw [(leaves_load format path between).of_fails hrest]
  · exact lookup_of_fails_init hrest

/-- A store that was loaded or made is in a file. -/
theorem of_yields_loadOrInit
    (h : Yields (loadOrInit format path : MachineStep StoreError Store) machine store machine') :
    store.path = path ∧ Spared format path machine.files machine'.files ∧
      ∃ content, machine'.files.lookup path = .ok (.file content) := by
  refine ⟨(opened_of_yields_loadOrInit h).path_eq, ?_⟩
  have hmade := yields_loadOrInit_iff.mp h
  split at hmade
  · obtain ⟨rfl, text, htext, -⟩ := hmade
    refine ⟨.kept rfl, ?_⟩
    cases hread : machine'.files.read path with
    | error cause => simp [hread, Disk.textOf, Except.bind] at htext
    | ok content => exact ⟨content, read_eq_ok_iff.mp hread⟩
  · next hmissing =>
    -- the empty store was saved, and what was saved is in the file
    have hholds : Holds format path machine'.files [] := hmade.2.holds
    refine ⟨.made (by simpa using hmissing) hholds, ?_⟩
    obtain ⟨text, -, hread⟩ := hholds
    exact ⟨_, read_eq_ok_iff.mp hread⟩

end OrderedEnv.Store
