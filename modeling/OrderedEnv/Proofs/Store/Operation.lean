import OrderedEnv.Proofs.Request.Failing

/-!
# Operations on the file of a store

Stores are loaded, made, cleared and saved. Whoever looks at the path of a store finds the whole of
what was there before or the whole of what was written, and finds it in between, too: the new text
waits in the temporary file until it is moved.

* `Store.Replaces.exists_text` — what a save leaves behind, and what is there between its two steps
* `Store.Operation.perform_replaces_or_keeps` — what each operation may change, however it ends
-/

namespace OrderedEnv.Store

open FileSystem

variable {format : StoreFormat} {path : Path} {store store' : Store} {machine machine' : Machine}
  {fs fs' : FileSystem}

/-! ## The temporary file -/

/-- To write the temporary file does not touch the store, whether it succeeds or not. -/
theorem lookup_of_yields_stage {text : String} {result : Except FileError Unit}
    (h : Yields (stage path text : MachineStep StoreError (Except FileError Unit)) machine result
      machine') :
    machine'.files.lookup path = machine.files.lookup path := by
  rcases of_yields_change (fun files => files.write (temporaryPath path) text.toUTF8) h with
    ⟨files, hwrite, -, rfl⟩ | ⟨cause, -, -, rfl⟩
  · exact lookup_write_temporaryPath hwrite
  · rfl

theorem isEmpty_of_resolve {place : Location} (h : fs.resolve path = .ok place) :
    path.isEmpty = false :=
  (refuse_eq_ok_iff.mp (resolve_eq_ok_iff.mp h).1).2.1

/-- Nothing is left at the path of the temporary file once it is moved. -/
theorem lookup_temporaryPath_rename (h : fs.rename (temporaryPath path) path = .ok fs') :
    fs'.lookup (temporaryPath path) = .error .notFound := by
  obtain ⟨origin, place, content, hr⟩ := exists_renames h
  obtain ⟨other, hother, hne⟩ := resolve_appendBytes (by decide) (by decide)
    (isEmpty_of_resolve hr.resolve_target) hr.resolve_source
  obtain rfl : other = place := Except.ok.inj (hother.symm.trans hr.resolve_target)
  have hgone : fs'.get? origin = none := by
    rw [hr.eq, get?_insert _ (ne_nil_of_get?_ne hr.notDirectory), if_neg hne,
      get?_erase _ (ne_nil_of_get?_ne hr.origin_notDirectory), if_pos rfl]
  rw [lookup, resolve_of_keepsDirectories hr.keepsDirectories hr.resolve_source]
  simp [bind, Except.bind, hgone]

/-- **What a save leaves behind that succeeded, and what was there between its two steps.** -/
theorem Replaces.exists_text (h : Replaces format store machine machine') :
    ∃ text between, print format store.declarations = .ok text ∧
      Yields (stage store.path text : MachineStep StoreError (Except FileError Unit)) machine
        (.ok ()) between ∧
      between.files.lookup store.path = machine.files.lookup store.path ∧
      Yields (commit store.path : MachineStep StoreError (Except FileError Unit)) between (.ok ())
        machine' ∧
      machine'.files.read store.path = .ok text.toUTF8 ∧
      machine'.files.lookup (temporaryPath store.path) = .error .notFound := by
  obtain ⟨text, between, htext, hstage, hcommit⟩ := h
  refine ⟨text, between, htext, hstage, lookup_of_yields_stage hstage, hcommit, ?_⟩
  obtain ⟨written, hwrite, rfl⟩ := yields_stage.mp hstage
  obtain ⟨moved, hrename, rfl⟩ := yields_commit.mp hcommit
  exact ⟨read_rename_write hwrite hrename, lookup_temporaryPath_rename hrename⟩

/-! ## Operations -/

/-- What can be done with the file of a store. -/
inductive Operation where
  | load
  | loadOrInit
  | init
  | clear
  | save
  deriving DecidableEq

namespace Operation

/-- Carries out an operation. What it gives is the store to work on from then on. -/
def perform (format : StoreFormat) (store : Store) : Operation → MachineStep StoreError Store
  | load => Store.load format store.path
  | loadOrInit => Store.loadOrInit format store.path
  | init => Store.init format store.path
  | clear => Store.clear format store.path
  | save => do
    Store.save format store
    return store

/-- The operation writes to the path, or tries to, if something is there already or not. -/
def writes (present : Bool) : Operation → Bool
  | load => false
  | loadOrInit => !present
  | init | clear | save => true

/-- The operation refuses to do anything, if something is at the path already or not. -/
def refuses (present : Bool) : Operation → Bool
  | init => present
  | clear => !present
  | load | loadOrInit | save => false

/-- The store that an operation writes. All but the last write a store without declarations. -/
def written (store : Store) : Operation → Store
  | load | loadOrInit | init | clear => empty store.path
  | save => store

end Operation

/-! ## Operations that succeed -/

namespace Operation

variable {operation : Operation}

theorem of_yields_perform (h : Yields (operation.perform format store) machine store' machine')
    (hwrites : operation.writes (machine.files.lookup store.path).toBool = true) :
    store' = operation.written store ∧
      Replaces format (operation.written store) machine machine' := by
  cases operation with
  | load => cases hwrites
  | loadOrInit =>
    have hmissing : (machine.files.lookup store.path).toBool = false := by
      simpa [writes] using hwrites
    have hmade := yields_loadOrInit_iff.mp h
    rwa [if_neg (by simp [hmissing])] at hmade
  | init => exact (yields_init_iff.mp h).2
  | clear => exact (yields_clear_iff.mp h).2
  | save =>
    obtain ⟨_, saved, hsave, h⟩ := yields_bind.mp h
    obtain ⟨rfl, rfl⟩ := yields_pure.mp h
    exact ⟨rfl, yields_save_iff.mp hsave⟩

/-! ## Operations however they end -/

theorem leaves_perform (format : StoreFormat) (store : Store) (operation : Operation)
    (machine : Machine) :
    Leaves (operation.perform format store) machine
      (machine.FilesOnly (ChangesOnly (paths store.path))) := by
  cases operation with
  | load =>
    refine (leaves_load format store.path machine).imp ?_
    rintro _ rfl
    exact filesOnly_refl _
  | loadOrInit => exact leaves_loadOrInit format store.path machine
  | init => exact leaves_init format store.path machine
  | clear => exact leaves_clear format store.path machine
  | save =>
    exact leaves_bind_of_trans (leaves_save format store machine)
      fun _ between _ _ => filesOnly_refl between

theorem lookup_of_fails_perform (h : Fails (operation.perform format store) machine machine') :
    machine'.files.lookup store.path = machine.files.lookup store.path := by
  cases operation with
  | load => rw [(leaves_load format store.path machine).of_fails h]
  | loadOrInit => exact lookup_of_fails_loadOrInit h
  | init => exact lookup_of_fails_init h
  | clear => exact lookup_of_fails_clear h
  | save =>
    rcases fails_bind.mp h with hsave | ⟨_, saved, -, hpure⟩
    · exact lookup_of_fails_save hsave
    · exact absurd hpure fails_pure

theorem leaves_perform_of_not_writes
    (h : operation.writes (machine.files.lookup store.path).toBool = false) :
    Leaves (operation.perform format store) machine (· = machine) := by
  cases operation with
  | load => exact leaves_load format store.path machine
  | loadOrInit =>
    have hpresent : (machine.files.lookup store.path).toBool = true := by simpa [writes] using h
    refine leaves_bind (fun _ h => absurd h fails_lift) fun present between hlook => ?_
    obtain ⟨rfl, rfl⟩ := yields_isPresent.mp hlook
    rw [if_pos hpresent]
    exact leaves_load format store.path between
  | init => cases h
  | clear => cases h
  | save => cases h

theorem fails_perform_of_refuses
    (h : operation.refuses (machine.files.lookup store.path).toBool = true) :
    Fails (operation.perform format store) machine machine := by
  cases operation with
  | load => cases h
  | loadOrInit => cases h
  | save => cases h
  | init =>
    refine fails_bind.mpr (.inr ⟨_, machine, yields_isPresent.mpr ⟨rfl, rfl⟩, ?_⟩)
    rw [if_pos (by simpa [refuses] using h)]
    exact fails_throw.mpr rfl
  | clear =>
    refine fails_bind.mpr (.inr ⟨_, machine, yields_isPresent.mpr ⟨rfl, rfl⟩, ?_⟩)
    rw [if_neg (by simpa [refuses] using h)]
    exact fails_throw.mpr rfl

/--
**An operation replaces the store as a whole or keeps it as it is.**

However it ends, nothing changes but the files at the path of the store and at that of the temporary
file. If it fails, what is at the path is what was there before. If it succeeds, and is one that
writes, the file holds the text of the store that was written, and the temporary file is gone; until
it was moved, the path led to what was there before. An operation that does not write changes
nothing. To make a store where something is, and to clear one where nothing is, fails and changes
nothing.
-/
theorem perform_replaces_or_keeps (format : StoreFormat) (store : Store) (operation : Operation)
    (machine : Machine) :
    let present := (machine.files.lookup store.path).toBool
    Leaves (operation.perform format store) machine
        (machine.FilesOnly (ChangesOnly (paths store.path))) ∧
      (∀ after, Fails (operation.perform format store) machine after →
        after.files.lookup store.path = machine.files.lookup store.path) ∧
      (operation.writes present = true →
        ∀ store' after, Yields (operation.perform format store) machine store' after →
          store' = operation.written store ∧
          ∃ text between, print format store'.declarations = .ok text ∧
            Yields (stage store.path text : MachineStep StoreError (Except FileError Unit)) machine
              (.ok ()) between ∧
            between.files.lookup store.path = machine.files.lookup store.path ∧
            Yields (commit store.path : MachineStep StoreError (Except FileError Unit)) between
              (.ok ()) after ∧
            after.files.read store.path = .ok text.toUTF8 ∧
            after.files.lookup (temporaryPath store.path) = .error .notFound) ∧
      (∀ text result between,
        Yields (stage store.path text : MachineStep StoreError (Except FileError Unit)) machine
          result between →
        between.files.lookup store.path = machine.files.lookup store.path) ∧
      (operation.writes present = false →
        Leaves (operation.perform format store) machine (· = machine)) ∧
      (operation.refuses present = true →
        Fails (operation.perform format store) machine machine) := by
  intro present
  refine ⟨leaves_perform format store operation machine, fun after => lookup_of_fails_perform,
    fun hwrites store' after h => ?_, fun text result between => lookup_of_yields_stage,
    leaves_perform_of_not_writes, fails_perform_of_refuses⟩
  obtain ⟨rfl, hreplaces⟩ := of_yields_perform h hwrites
  refine ⟨rfl, ?_⟩
  have hpath : (operation.written store).path = store.path := by cases operation <;> rfl
  rw [← hpath]
  exact hreplaces.exists_text

/-- A store is saved where nothing is. Where another one is, and a directory is in the place of the
temporary file, it cannot be saved, and no store can be made. -/
theorem perform_replaces_or_keeps_blocked :
    let path := Path.ofText "store.yml"
    let host : Store := ⟨path, [{ key := "HOST", value := "example.com" }]⟩
    let blocked := Request.blockedMachine
    (∃ after, Yields (save.perform Edit.sampleFormat host) Edit.bareMachine host after ∧
        after.files.read path = .ok "envs:\n- HOST: example.com\n".toUTF8 ∧
        after.files.lookup (temporaryPath path) = .error .notFound) ∧
      (∃ after, Fails (save.perform Edit.sampleFormat host) blocked after ∧
        after.files.lookup path = blocked.files.lookup path) ∧
      Fails (init.perform Edit.sampleFormat host) blocked blocked ∧
      Leaves (loadOrInit.perform Edit.sampleFormat host) blocked (· = blocked) := by
  intro path host blocked
  have hthere : (blocked.files.lookup path).toBool = true := by decide +kernel
  refine ⟨⟨((save.perform Edit.sampleFormat host).outcome Edit.bareMachine).2, ?_⟩,
    ⟨((save.perform Edit.sampleFormat host).outcome blocked).2, ?_⟩, ?_, ?_⟩
  · have hsave : Yields (save.perform Edit.sampleFormat host) Edit.bareMachine host _ :=
      yields_bind.mpr ⟨_, _, yields_of_toBool (by decide +kernel), yields_pure.mpr ⟨rfl, rfl⟩⟩
    obtain ⟨-, text, _, htext, -, -, -, hread, hgone⟩ :=
      (perform_replaces_or_keeps Edit.sampleFormat host save Edit.bareMachine).2.2.1 rfl _ _ hsave
    obtain rfl : "envs:\n- HOST: example.com\n" = text := Except.ok.inj htext
    exact ⟨hsave, hread, hgone⟩
  · have hfails : Fails (save.perform Edit.sampleFormat host) blocked _ :=
      fails_of_toBool (by decide +kernel)
    exact ⟨hfails,
      (perform_replaces_or_keeps Edit.sampleFormat host save blocked).2.1 _ hfails⟩
  · exact (perform_replaces_or_keeps Edit.sampleFormat host init blocked).2.2.2.2.2 hthere
  · refine (perform_replaces_or_keeps Edit.sampleFormat host loadOrInit blocked).2.2.2.2.1 ?_
    show (!(blocked.files.lookup path).toBool) = false
    rw [hthere]
    rfl

end Operation

end OrderedEnv.Store
