import OrderedEnv.Proofs.Limits.File
import OrderedEnv.Proofs.Request.Editing
import OrderedEnv.Proofs.Store.Failing

/-!
# Requests that fail

A request that adds a declaration saves the store last, and a store that cannot be saved stays as it
is. Before that a store may have been made where there was none, and the limits may have been saved.

* `Request.spared_of_fails` — what is left of the store after `add`, `unset` or `clear` failed
* `Request.lookup_of_fails_performInit_clear` — what is left after `init --clear` failed
* `Request.performAdd_fails_overwrites`, `Request.performInit_clear_loses_store` — stores that are
  lost
-/

namespace OrderedEnv.Request

open FileSystem

variable {format : StoreFormat} {path : Path} {machine machine' : Machine} {store : Store}

/-! ## Steps that leave the files alone -/

section

variable {F : FileSystem → FileSystem → Prop} [IsPreorder FileSystem F]

theorem leaves_resolveValue (origin : ValueOrigin) (machine : Machine) :
    Leaves (resolveValue origin : MachineStep RequestError String) machine
      (machine.FilesChange F) := by
  cases origin with
  | given value => exact filesChange_refl machine
  | file path =>
    refine leaves_bind_of_trans (filesChange_refl machine) fun found between _ _ => ?_
    split <;> exact filesChange_refl between
  | input =>
    refine leaves_bind_of_trans (leaves_pipedInput machine) fun found between _ _ => ?_
    split
    · exact filesChange_refl between
    · split <;> exact filesChange_refl between

theorem leaves_resolvePolicy (store : Store) (key : String) (append tool : Bool)
    (machine : Machine) :
    Leaves (resolvePolicy store key append tool : MachineStep RequestError Store.Policy) machine
      (machine.FilesChange F) := by
  unfold resolvePolicy
  extract_lets count
  split
  · exact filesChange_refl machine
  split
  · exact filesChange_refl machine
  split
  · exact filesChange_refl machine
  refine leaves_bind_of_trans (leaves_ask _ machine) fun answer between _ _ => ?_
  split
  · exact filesChange_refl between
  · split <;> exact filesChange_refl between

omit [IsPreorder FileSystem F] in
/-- A step on a store changes nothing but the files. -/
theorem leaves_onStore {α : Type} {task : StoreTask} {step : MachineStep StoreError α}
    (h : Leaves step machine (machine.FilesOnly F)) :
    Leaves (onStore task step) machine (machine.FilesChange F) :=
  leaves_adapt.mpr (h.imp fun _ => .of_filesOnly fun _ _ => id)

end

/-! ## The ends of commands -/

/-- A declaration is added and the store saved. -/
def keep (format : StoreFormat) (store : Store) (d : Declaration) (policy : Store.Policy)
    (task : StoreTask) (report : Store.Added → String) : MachineStep RequestError Unit := do
  let (done, store) ← onStore task (store.add d policy)
  onStore .save (store.save format)
  succeed (report done)

theorem leaves_keep (format : StoreFormat) (store : Store) (d : Declaration)
    (policy : Store.Policy) (task : StoreTask) (report : Store.Added → String)
    (machine : Machine) :
    Leaves (keep format store d policy task report) machine
      (machine.FilesChange (ChangesOnly (Store.paths store.path))) := by
  refine leaves_bind_of_trans (filesChange_refl machine) ?_
  rintro ⟨done, store'⟩ between hadd -
  obtain ⟨hadded, rfl⟩ := yields_liftExcept.mp (yields_adapt.mp hadd)
  rw [← (Store.mem_of_add hadded).1]
  refine leaves_bind_of_trans (leaves_onStore (Store.leaves_save format store' machine)) ?_
  exact fun _ between _ _ => leaves_print _ between

theorem lookup_of_fails_keep {d : Declaration} {policy : Store.Policy} {task : StoreTask}
    {report : Store.Added → String}
    (h : Fails (keep format store d policy task report) machine machine') :
    machine'.files.lookup store.path = machine.files.lookup store.path := by
  rcases fails_bind.mp h with hadd | ⟨⟨done, store'⟩, between, hadd, hrest⟩
  · rw [(fails_liftExcept.mp (fails_adapt.mp hadd)).2]
  obtain ⟨hadded, rfl⟩ := yields_liftExcept.mp (yields_adapt.mp hadd)
  rw [← (Store.mem_of_add hadded).1]
  rcases fails_bind.mp hrest with hsave | ⟨_, saved, -, hprint⟩
  · exact Store.lookup_of_fails_save (fails_adapt.mp hsave)
  · exact absurd hprint fails_print

/-- What `add` does once it knows the limits. -/
def settle (format : StoreFormat) (store : Store) (request : AddRequest) (tool : Bool)
    (value : String) (limits : Limits) : MachineStep RequestError Unit := do
  if let .error cause := Quota.check store.declarations value limits then throw (.tooLarge cause)
  let policy ← resolvePolicy store request.key request.append tool
  keep format store { key := request.key, value, options := request.options } policy .add
    (addedReport request.key)

theorem leaves_settle (format : StoreFormat) (store : Store) (request : AddRequest) (tool : Bool)
    (value : String) (limits : Limits) (machine : Machine) :
    Leaves (settle format store request tool value limits) machine
      (machine.FilesChange (ChangesOnly (Store.paths store.path))) := by
  unfold settle
  split
  · exact filesChange_refl machine
  refine leaves_bind_of_trans
    (leaves_resolvePolicy store request.key request.append tool machine) ?_
  exact fun policy asked _ _ => leaves_keep format store _ policy .add _ asked

theorem lookup_of_fails_settle {request : AddRequest} {tool : Bool} {value : String}
    {limits : Limits}
    (h : Fails (settle format store request tool value limits) machine machine') :
    machine'.files.lookup store.path = machine.files.lookup store.path := by
  unfold settle at h
  split at h
  · rw [fails_throw.mp h]
  have hpolicy := leaves_resolvePolicy store request.key request.append tool machine (F := Eq)
  rcases fails_bind.mp h with hresolve | ⟨policy, asked, hresolve, hkeep⟩
  · rw [← (hpolicy.of_fails hresolve).files]
  · rw [(hpolicy.of_yields hresolve).files]
    exact lookup_of_fails_keep hkeep

/-- What `add` does once the store is loaded. -/
def addLoaded (format : StoreFormat) (store : Store) (request : AddRequest) (tool : Bool)
    (value : String) : MachineStep RequestError Unit := do
  let limits ← (Limits.loadOrInit (← Host.environment).limitsPath).adapt .limits
  settle format store request tool value limits

theorem leaves_addLoaded (format : StoreFormat) (store : Store) (request : AddRequest)
    (tool : Bool) (value : String) (machine : Machine) :
    Leaves (addLoaded format store request tool value) machine
      (machine.FilesChange
        (ChangesOnly (Store.paths store.path ∪ machine.environment.limitsPath.upward))) := by
  refine leaves_bind_of_trans (filesChange_refl machine) fun environment between hlook _ => ?_
  obtain ⟨rfl, rfl⟩ := yields_environment.mp hlook
  have hlimits := Limits.leaves_loadOrInit between.environment.limitsPath between
  refine leaves_bind_of_trans (leaves_adapt.mpr (hlimits.imp fun _ => .of_filesOnly ?_)) ?_
  · exact fun _ _ h => h.changesOnly.mono Set.subset_union_right
  · exact fun limits limited _ _ => (leaves_settle format store request tool value limits
      limited).imp fun _ => .mono fun _ _ => ChangesOnly.mono Set.subset_union_left

theorem lookup_of_fails_addLoaded {request : AddRequest} {tool : Bool} {value : String}
    {content : ByteArray} (hfile : machine.files.lookup store.path = .ok (.file content))
    (h : Fails (addLoaded format store request tool value) machine machine') :
    machine'.files.lookup store.path = machine.files.lookup store.path ∨
      Limits.Overwrites machine.environment.limitsPath store.path machine.files
        machine'.files := by
  rcases fails_bind.mp h with hnever | ⟨environment, between, hlook, hrest⟩
  · exact absurd hnever fails_environment
  obtain ⟨rfl, rfl⟩ := yields_environment.mp hlook
  have hlimits := Limits.leaves_loadOrInit between.environment.limitsPath between
  rcases fails_bind.mp hrest with hload | ⟨limits, limited, hload, hend⟩
  · exact (hlimits.of_fails (fails_adapt.mp hload)).files.lookup_eq_or_overwrites hfile
  · have hsettle := leaves_settle format store request tool value limits limited
    have hkeeps := (hsettle.of_fails hend).files.toKeepsDirectories
    have hlookup := lookup_of_fails_settle hend
    -- what happened to the store happened while the limits were loaded
    rcases (hlimits.of_yields (yields_adapt.mp hload)).files.lookup_eq_or_overwrites hfile with
      hsame | hover
    · exact .inl (hlookup.trans hsame)
    · exact .inr (hover.trans (.refl _) hkeeps hlookup)

/-! ## Where commands may change something -/

theorem performUnset_eq (format : StoreFormat) (path : Path) (key : String) :
    (performUnset format path key : MachineStep RequestError Unit) = (do
      if key.isEmpty then throw .missingKey
      let store ← onStore .load (Store.loadOrInit format path)
      keep format store (.remove key) .append .unset (fun _ => "Unset " ++ key)) :=
  rfl

theorem performAdd_eq (format : StoreFormat) (path : Path) (request : AddRequest) (tool : Bool) :
    (performAdd format path request tool : MachineStep RequestError Unit) = (do
      if request.key.isEmpty then throw .missingKey
      let value ← resolveValue request.origin
      let store ← onStore .load (Store.loadOrInit format path)
      addLoaded format store request tool value) :=
  rfl

theorem leaves_performUnset (format : StoreFormat) (path : Path) (key : String)
    (machine : Machine) :
    Leaves (performUnset format path key : MachineStep RequestError Unit) machine
      (machine.FilesChange (ChangesOnly (Store.paths path))) := by
  rw [performUnset_eq]
  split
  · exact filesChange_refl machine
  refine leaves_bind_of_trans (leaves_onStore (Store.leaves_loadOrInit format path machine)) ?_
  intro store between hload _
  obtain ⟨rfl, -⟩ := Store.of_yields_loadOrInit (yields_adapt.mp hload)
  exact leaves_keep format store (.remove key) .append .unset _ between

theorem leaves_performClear (format : StoreFormat) (path : Path) (machine : Machine) :
    Leaves (performClear format path : MachineStep RequestError Unit) machine
      (machine.FilesChange (ChangesOnly (Store.paths path))) :=
  leaves_bind_of_trans (leaves_onStore (Store.leaves_clear format path machine))
    fun _ between _ _ => leaves_print _ between

theorem leaves_performAdd (format : StoreFormat) (path : Path) (request : AddRequest)
    (tool : Bool) (machine : Machine) :
    Leaves (performAdd format path request tool : MachineStep RequestError Unit) machine
      (machine.FilesChange
        (ChangesOnly (Store.paths path ∪ machine.environment.limitsPath.upward))) := by
  rw [performAdd_eq]
  split
  · exact filesChange_refl machine
  refine leaves_bind_of_trans (leaves_resolveValue request.origin machine) ?_
  intro value resolved _ hresolved
  have hstore := Store.leaves_loadOrInit format path resolved
  refine leaves_bind_of_trans (leaves_adapt.mpr (hstore.imp fun _ => .of_filesOnly ?_)) ?_
  · exact fun _ _ => ChangesOnly.mono Set.subset_union_left
  intro store loaded hload hloaded
  obtain ⟨rfl, -⟩ := Store.of_yields_loadOrInit (yields_adapt.mp hload)
  rw [← hresolved.environment, ← hloaded.environment]
  exact leaves_addLoaded format store request tool value loaded

/-! ## What is at the path of the store -/

theorem spared_of_fails_performUnset {key : String}
    (h : Fails (performUnset format path key : MachineStep RequestError Unit) machine machine') :
    Store.Spared format path machine.files machine'.files := by
  rw [performUnset_eq] at h
  split at h
  · rw [fails_throw.mp h]
    exact .kept rfl
  rcases fails_bind.mp h with hload | ⟨store, loaded, hload, hrest⟩
  · exact .kept (Store.lookup_of_fails_loadOrInit (fails_adapt.mp hload))
  obtain ⟨rfl, hspared, -⟩ := Store.of_yields_loadOrInit (yields_adapt.mp hload)
  exact hspared.congr (lookup_of_fails_keep hrest)

theorem lookup_of_fails_performClear
    (h : Fails (performClear format path : MachineStep RequestError Unit) machine machine') :
    machine'.files.lookup path = machine.files.lookup path := by
  rcases fails_bind.mp h with hclear | ⟨store, cleared, -, hprint⟩
  · exact Store.lookup_of_fails_clear (fails_adapt.mp hclear)
  · exact absurd hprint fails_print

theorem spared_of_fails_performAdd {request : AddRequest} {tool : Bool}
    (h : Fails (performAdd format path request tool : MachineStep RequestError Unit) machine
      machine') :
    Store.Spared format path machine.files machine'.files ∨
      Limits.Overwrites machine.environment.limitsPath path machine.files machine'.files := by
  rw [performAdd_eq] at h
  split at h
  · rw [fails_throw.mp h]
    exact .inl (.kept rfl)
  have hvalue := leaves_resolveValue request.origin machine (F := Eq)
  rcases fails_bind.mp h with hresolve | ⟨value, resolved, hresolve, hopen⟩
  · rw [← (hvalue.of_fails hresolve).files]
    exact .inl (.kept rfl)
  obtain ⟨hfiles, henvironment⟩ := hvalue.of_yields hresolve
  rw [hfiles, ← henvironment]
  rcases fails_bind.mp hopen with hload | ⟨store, loaded, hload, hadd⟩
  · exact .inl (.kept (Store.lookup_of_fails_loadOrInit (fails_adapt.mp hload)))
  obtain ⟨rfl, hspared, content, hfile⟩ := Store.of_yields_loadOrInit (yields_adapt.mp hload)
  have hloaded := (Store.leaves_loadOrInit format store.path resolved).of_yields
    (yields_adapt.mp hload)
  rw [← hloaded.environment]
  rcases lookup_of_fails_addLoaded hfile hadd with hsame | hover
  · exact .inl (hspared.congr hsame)
  · exact .inr (hover.trans hloaded.files.toKeepsDirectories (.refl _) rfl)

/--
**A command that fails leaves the declarations alone.**

What is at the path of the store after `add` or `unset` failed is what was there before, or an empty
store where nothing was. Nothing else changes but the temporary file and, by `add`, the file of the
limits and the directories around it. After `clear` failed, what is at the path is what was there
before.

There is one exception. If the path of the limits led nowhere, not even to a missing file, and leads
to the store once its directories are made, then `add` may fail with the limits of a new
configuration written over the store.
-/
theorem spared_of_fails (format : StoreFormat) (path : Path) (machine after : Machine) :
    (∀ request tool,
      Fails (performAdd format path request tool : MachineStep RequestError Unit) machine after →
      (Store.Spared format path machine.files after.files ∨
          Limits.Overwrites machine.environment.limitsPath path machine.files after.files) ∧
        machine.files.ChangesOnly
          (Store.paths path ∪ machine.environment.limitsPath.upward) after.files) ∧
      (∀ key,
        Fails (performUnset format path key : MachineStep RequestError Unit) machine after →
        Store.Spared format path machine.files after.files ∧
          machine.files.ChangesOnly (Store.paths path) after.files) ∧
      (Fails (performClear format path : MachineStep RequestError Unit) machine after →
        after.files.lookup path = machine.files.lookup path ∧
          machine.files.ChangesOnly (Store.paths path) after.files) := by
  refine ⟨fun request tool h => ⟨spared_of_fails_performAdd h, ?_⟩,
    fun key h => ⟨spared_of_fails_performUnset h, ?_⟩,
    fun h => ⟨lookup_of_fails_performClear h, ?_⟩⟩
  · exact ((leaves_performAdd format path request tool machine).of_fails h).files
  · exact ((leaves_performUnset format path key machine).of_fails h).files
  · exact ((leaves_performClear format path machine).of_fails h).files

/-- A store in which a variable is set and unset. -/
def sampleText : String := "envs:\n- HOST: example.com\n- HOST: ''\n  opts:\n    unset: true\n"

/-- A machine with a store, and with a directory where its temporary file would be. -/
def blockedMachine : Machine :=
  let files := Edit.bareMachine.files.insert [(Path.ofText "store.yml").bytes]
    (.file sampleText.toUTF8)
  { Edit.bareMachine with
    files := files.insert [(Path.ofText "store.yml.tmp").bytes] .directory }

/-- To set the variable is ambiguous. An unset declaration of another can be written, and so can the
list that is cleared, but a directory is where the temporary file would be. -/
theorem spared_of_fails_blocked :
    let path := Path.ofText "store.yml"
    let add : MachineStep RequestError Unit :=
      performAdd Edit.sampleFormat path ⟨"HOST", .given "localhost", {}, false⟩ true
    let unset : MachineStep RequestError Unit := performUnset Edit.sampleFormat path "PORT"
    let clear : MachineStep RequestError Unit := performClear Edit.sampleFormat path
    (∃ after, Fails add blockedMachine after ∧
      after.files.lookup path = blockedMachine.files.lookup path) ∧
    (∃ after,
      FailsWith unset blockedMachine (.store .save (.unwritable path .isDirectory)) after ∧
      after.files.lookup path = blockedMachine.files.lookup path) ∧
    ∃ after,
      FailsWith clear blockedMachine (.store .clear (.unwritable path .isDirectory)) after ∧
      after.files.lookup path = blockedMachine.files.lookup path := by
  intro path add unset clear
  have hthere : (blockedMachine.files.lookup path).toBool = true := by decide +kernel
  refine ⟨⟨(add.outcome blockedMachine).2, ?_⟩, ⟨(unset.outcome blockedMachine).2, ?_⟩,
    ⟨(clear.outcome blockedMachine).2, ?_⟩⟩
  · have hfails : Fails add blockedMachine (add.outcome blockedMachine).2 :=
      fails_of_toBool (by decide +kernel)
    refine ⟨hfails, ?_⟩
    rcases ((spared_of_fails Edit.sampleFormat path blockedMachine _).1 _ _ hfails).1 with
      hspared | hover
    · exact hspared.lookup_eq hthere
    · have hread : (add.outcome blockedMachine).2.files.read path = .ok sampleText.toUTF8 := by
        decide +kernel
      have hne : sampleText.toUTF8 ≠ Limits.default.toJson.toUTF8 := by decide +kernel
      exact absurd (Except.ok.inj (hread.symm.trans hover.read)) hne
  · have hfails : FailsWith unset blockedMachine (.store .save (.unwritable path .isDirectory))
        (unset.outcome blockedMachine).2 := rfl
    have hspared := ((spared_of_fails Edit.sampleFormat path blockedMachine _).2.1 _ ⟨_, hfails⟩).1
    exact ⟨hfails, hspared.lookup_eq hthere⟩
  · have hfails : FailsWith clear blockedMachine (.store .clear (.unwritable path .isDirectory))
        (clear.outcome blockedMachine).2 := rfl
    exact ⟨hfails, ((spared_of_fails Edit.sampleFormat path blockedMachine _).2.2 ⟨_, hfails⟩).1⟩

/-- A machine on which the limits are to be kept in a directory that is missing, and from there by
way of `..` where the store is. -/
def detourMachine : Machine :=
  let directory := (Path.ofText "envman").bytes
  let files := Edit.bareMachine.files.insert [directory] .directory
  { Edit.bareMachine with
    environment := [("XDG_CONFIG_HOME".toUTF8, "missing/..".toUTF8)]
    files := files.insert [(Path.ofText "configs.json").bytes, directory]
      (.file sampleText.toUTF8) }

/-- To set the variable is ambiguous, and the store is lost. -/
theorem performAdd_fails_overwrites :
    let path := Path.ofText "envman/configs.json"
    let add : MachineStep RequestError Unit :=
      performAdd Edit.sampleFormat path ⟨"HOST", .given "localhost", {}, false⟩ true
    let after := (add.outcome detourMachine).2
    Fails add detourMachine after ∧
      detourMachine.files.read path = .ok sampleText.toUTF8 ∧
      after.files.read path = .ok Limits.default.toJson.toUTF8 ∧
      after.files.lookup path ≠ detourMachine.files.lookup path := by
  intro path add after
  exact ⟨fails_of_toBool (by decide +kernel), by decide +kernel, by decide +kernel,
    by decide +kernel⟩

/-! ## A store in place of another -/

/-- A store is made where nothing is. -/
def make (format : StoreFormat) (path : Path) : MachineStep RequestError Unit := do
  let _ ← onStore .init (Store.init format path)
  succeed ("Initialized envstore at " ++ path.display)

theorem leaves_make (format : StoreFormat) (path : Path) (machine : Machine) :
    Leaves (make format path) machine (machine.FilesChange (ChangesOnly (Store.paths path))) :=
  leaves_bind_of_trans (leaves_onStore (Store.leaves_init format path machine))
    fun _ between _ _ => leaves_print _ between

theorem lookup_of_fails_make (h : Fails (make format path) machine machine') :
    machine'.files.lookup path = machine.files.lookup path := by
  rcases fails_bind.mp h with hinit | ⟨store, made, -, hprint⟩
  · exact Store.lookup_of_fails_init (fails_adapt.mp hinit)
  · exact absurd hprint fails_print

theorem performInit_eq (format : StoreFormat) (path : Path) (clear : Bool) :
    (performInit format path clear : MachineStep RequestError Unit) = (do
      if clear then
        if ← Disk.isPresent path then
          if let .error cause ← Disk.remove path then
            throw (.unremovable path cause)
      make format path) :=
  rfl

theorem leaves_performInit (format : StoreFormat) (path : Path) (clear : Bool)
    (machine : Machine) :
    Leaves (performInit format path clear : MachineStep RequestError Unit) machine
      (machine.FilesChange (ChangesOnly (Store.paths path))) := by
  have hself : {path} ⊆ Store.paths path := Set.singleton_subset_iff.mpr (.inl rfl)
  rw [performInit_eq]
  split
  · refine leaves_bind_of_trans (filesChange_refl machine) fun present between _ _ => ?_
    split
    · refine leaves_bind_of_trans
        ((leaves_change fun files h => (changesOnly_remove h).mono hself).imp
          fun _ => .of_filesOnly fun _ _ => id) fun removed after _ _ => ?_
      cases removed with
      | error cause => exact filesChange_refl after
      | ok _ => exact leaves_make format path after
    · exact leaves_make format path between
  · exact leaves_make format path machine

/--
**If a store cannot be put in place of a file, either the file is there as before, or there is
nothing.**

With `clear`, a file at the path is removed before the store is made. After the command failed,
nothing is at the path if the file was removed. If there was none that can be removed, what is at the
path is what was there before. Nothing else changes but the temporary file.
-/
theorem lookup_of_fails_performInit_clear
    (h : Fails (performInit format path true : MachineStep RequestError Unit) machine machine') :
    (∀ removed, machine.files.remove path = .ok removed →
        machine'.files.lookup path = .error .notFound) ∧
      ((∀ removed, machine.files.remove path ≠ .ok removed) →
        machine'.files.lookup path = machine.files.lookup path) ∧
      machine.files.ChangesOnly (Store.paths path) machine'.files := by
  have hchanges := ((leaves_performInit format path true machine).of_fails h).files
  rw [performInit_eq] at h
  rcases fails_bind.mp h with hpresent | ⟨present, between, hpresent, hrest⟩
  · exact absurd hpresent fails_lift
  obtain ⟨rfl, rfl⟩ := yields_isPresent.mp hpresent
  split at hrest
  · rcases fails_bind.mp hrest with hremove | ⟨result, after, hremove, hmake⟩
    · exact absurd hremove fails_lift
    rcases of_yields_change (fun files => files.remove path) hremove with
      ⟨files, hfiles, rfl, rfl⟩ | ⟨cause, hcause, rfl, rfl⟩
    · -- the file is gone, and to fail to make the store does not bring it back
      have hmissing := (lookup_of_fails_make hmake).trans (lookup_remove hfiles).2
      exact ⟨fun _ _ => hmissing, fun hnone => absurd hfiles (hnone files), hchanges⟩
    · rw [fails_throw.mp hmake] at hchanges ⊢
      refine ⟨fun removed hremoved => ?_, fun _ => rfl, hchanges⟩
      exact absurd (hcause.symm.trans hremoved) (by simp)
  · next hmissing =>
    -- nothing is there, so nothing can be removed
    refine ⟨fun removed hremoved => ?_, fun _ => lookup_of_fails_make hrest, hchanges⟩
    obtain ⟨content, hcontent⟩ := (lookup_remove hremoved).1
    rw [hcontent] at hmissing
    exact absurd rfl hmissing

/-- The store cannot be saved, as a directory is in the way. The directory itself cannot be removed. -/
theorem lookup_of_fails_performInit_clear_blocked :
    let store := Path.ofText "store.yml"
    let directory := Path.ofText "store.yml.tmp"
    let init (path : Path) : MachineStep RequestError Unit :=
      performInit Edit.sampleFormat path true
    (∃ after, Fails (init store) blockedMachine after ∧
        after.files.lookup store = .error .notFound) ∧
      ∃ after, Fails (init directory) blockedMachine after ∧
        after.files.lookup directory = blockedMachine.files.lookup directory := by
  intro store directory init
  have hstore : Fails (init store) blockedMachine ((init store).outcome blockedMachine).2 :=
    fails_of_toBool (by decide +kernel)
  have hdirectory :
      Fails (init directory) blockedMachine ((init directory).outcome blockedMachine).2 :=
    fails_of_toBool (by decide +kernel)
  refine ⟨⟨_, hstore, ?_⟩, ⟨_, hdirectory, ?_⟩⟩
  · obtain ⟨hremoved, -, -⟩ := lookup_of_fails_performInit_clear hstore
    cases hremove : blockedMachine.files.remove store with
    | ok removed => exact hremoved removed hremove
    | error cause =>
      have hok : (blockedMachine.files.remove store).toBool = true := by decide +kernel
      rw [hremove] at hok
      cases hok
  · obtain ⟨-, hkept, -⟩ := lookup_of_fails_performInit_clear hdirectory
    refine hkept fun removed hremove => ?_
    have herror : (blockedMachine.files.remove directory).toBool = false := by decide +kernel
    rw [hremove] at herror
    cases herror

/-- The store is lost. -/
theorem performInit_clear_loses_store :
    let path := Path.ofText "store.yml"
    let init : MachineStep RequestError Unit := performInit Edit.sampleFormat path true
    let after := (init.outcome blockedMachine).2
    Fails init blockedMachine after ∧
      blockedMachine.files.lookup path = .ok (.file sampleText.toUTF8) ∧
      after.files.lookup path ≠ blockedMachine.files.lookup path := by
  intro path init after
  exact ⟨fails_of_toBool (by decide +kernel), by decide +kernel, by decide +kernel⟩

end OrderedEnv.Request
