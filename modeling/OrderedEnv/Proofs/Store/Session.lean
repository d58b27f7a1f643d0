import OrderedEnv.Proofs.Store.Operation

/-!
# A store over many tasks

Who works with a store adds declarations to it, saves it, loads it again, and so on. What is seen of
it is what would be seen if there were no file at all, but just two lists in memory (`Memory`): the
one that is worked on, and the one that is kept. Nothing is lost on the way through the file but
blanks, and they show in no text.

* `Store.Memory.Mirrors.done`, `Store.Memory.Mirrors.refused` — one task
* `Store.Session.refines_memory` — any number of tasks
-/

namespace OrderedEnv

/-- What was written is read as it was written. -/
def StoreFormat.Lossless (format : StoreFormat) : Prop :=
  ∀ (declarations : List Declaration) (text : String),
    format.write? (declarations.map Declaration.toRaw) = some text →
    format.read text = .ok (declarations.map Declaration.toRaw)

/-- The files did not do what they were asked for. -/
def StoreError.isFromFiles : StoreError → Bool
  | .unreadable _ _ | .unwritable _ _ => true
  | _ => false

namespace Store

variable {format : StoreFormat} {path : Path} {store store' : Store}
  {declarations : List Declaration} {machine machine' : Machine} {cause : StoreError}

/-! ## Tasks -/

/-- What is done with a store, in memory or with its file. -/
inductive Task where
  | add (d : Declaration) (policy : Policy)
  | file (operation : Operation)

/-- Carries out a task. What it gives is the store to work on from then on. -/
def Task.perform (format : StoreFormat) (store : Store) : Task → MachineStep StoreError Store
  | add d policy => do
    let (_, changed) ← store.add d policy
    return changed
  | file operation => operation.perform format store

/--
Tasks that follow one another, from a new store on.

A task that fails leaves the store as it is; none fails because of the files. In between nobody
touches what is at the path of the store.
-/
inductive Session (format : StoreFormat) (path : Path) (start : Machine) :
    List Task → Store → Machine → Prop
  | nil : Session format path start [] (empty path) start
  | done {tasks : List Task} {store store' : Store} {machine machine' : Machine} {task : Task} :
    Session format path start tasks store machine →
    Yields (task.perform format store) machine store' machine' →
    Session format path start (tasks ++ [task]) store' machine'
  | refused {tasks : List Task} {store : Store} {machine machine' : Machine} {task : Task}
    {cause : StoreError} :
    Session format path start tasks store machine →
    FailsWith (task.perform format store) machine cause machine' → cause.isFromFiles = false →
    Session format path start (tasks ++ [task]) store machine'
  | elsewhere {tasks : List Task} {store : Store} {machine machine' : Machine} :
    Session format path start tasks store machine →
    machine'.files.lookup path = machine.files.lookup path →
    Session format path start tasks store machine'

/-! ## Stores in memory -/

/-- A store without a file. -/
structure Memory where
  /-- The list that is worked on. -/
  working : List Declaration
  /-- The list that is kept, if one is. -/
  kept : Option (List Declaration)

namespace Memory

/-- A list is kept from now on, and worked on, too. -/
def keep (format : StoreFormat) (declarations : List Declaration) : Except StoreError Memory :=
  (print format declarations).map fun _ => ⟨declarations, some declarations⟩

theorem keep_eq_error (h : print format declarations = .error cause) :
    keep format declarations = .error cause := by
  rw [keep, h]
  rfl

/-- What a task does. -/
def step (format : StoreFormat) (path : Path) (memory : Memory) : Task → Except StoreError Memory
  | .add d policy =>
    (addTo memory.working d policy).map fun (_, working) => { memory with working }
  | .file .load =>
    match memory.kept with
    | none => .error (.notFound path)
    | some kept => .ok { memory with working := kept.map Declaration.withoutBlanks }
  | .file .loadOrInit =>
    match memory.kept with
    | none => keep format []
    | some kept => .ok { memory with working := kept.map Declaration.withoutBlanks }
  | .file .init =>
    match memory.kept with
    | none => keep format []
    | some _ => .error (.alreadyExists path)
  | .file .clear =>
    match memory.kept with
    | none => .error (.notFound path)
    | some _ => keep format []
  | .file .save => keep format memory.working

/-- What tasks do, one after the other. One that fails does nothing. -/
def run (format : StoreFormat) (path : Path) (tasks : List Task) : Memory :=
  tasks.foldl (fun memory task => (memory.step format path task).toOption.getD memory) ⟨[], none⟩

/-- A store and the files are as a store in memory says. -/
structure Mirrors (format : StoreFormat) (path : Path) (memory : Memory) (store : Store)
    (files : FileSystem) : Prop where
  store_eq : store = ⟨path, memory.working⟩
  working_keys : ∀ d ∈ memory.working, Declaration.isVariableKey d.key = true
  missing : memory.kept = none → (files.lookup path).toBool = false
  holds : ∀ kept, memory.kept = some kept → Holds format path files kept
  kept_keys : ∀ kept, memory.kept = some kept →
    ∀ d ∈ kept, Declaration.isVariableKey d.key = true

end Memory

/-! ## Files without loss -/

theorem print_withoutBlanks (format : StoreFormat) (declarations : List Declaration) :
    print format (declarations.map Declaration.withoutBlanks) = print format declarations := by
  unfold print
  rw [map_toRaw_withoutBlanks]

/-- The file gives back the list that was written to it, without its blanks. -/
theorem Holds.found_iff_of_lossless {files : FileSystem} (hformat : format.Lossless)
    (h : Holds format path files declarations)
    (hkeys : ∀ d ∈ declarations, Declaration.isVariableKey d.key = true) :
    Found format path files store ↔
      store = ⟨path, declarations.map Declaration.withoutBlanks⟩ := by
  obtain ⟨text, hwrite, htext⟩ := h
  rw [found_iff_of_read htext (hformat declarations text hwrite)]
  exact and_iff_left hkeys

theorem Holds.yields_load (hformat : format.Lossless)
    (h : Holds format path machine.files declarations)
    (hkeys : ∀ d ∈ declarations, Declaration.isVariableKey d.key = true) :
    Yields (load format path) machine ⟨path, declarations.map Declaration.withoutBlanks⟩ machine :=
  yields_load_iff.mpr ⟨rfl, (h.found_iff_of_lossless hformat hkeys).mpr rfl⟩

theorem lookup_toBool_of_textOf {files : FileSystem} {text : String}
    (h : Disk.textOf (files.read path) = .ok text) : (files.lookup path).toBool = true := by
  cases hlookup : files.lookup path with
  | error stopped =>
    rw [FileSystem.read, hlookup] at h
    cases h
  | ok entry => rfl

/-! ## Refusals -/

/-- When a store could not be saved for another reason than the files, it has no text. -/
theorem of_failsWith_save (h : FailsWith (save format store) machine cause machine')
    (hcause : cause.isFromFiles = false) :
    print format store.declarations = .error cause ∧ machine' = machine := by
  cases hprint : print format store.declarations with
  | error stopped =>
    rcases failsWith_bind.mp h with herror | ⟨text, _, htext, -⟩
    · obtain ⟨hstopped, rfl⟩ := failsWith_liftExcept.mp herror
      exact ⟨hprint.symm.trans hstopped, rfl⟩
    · exact absurd (hprint.symm.trans (yields_liftExcept.mp htext).1) (by simp)
  | ok text =>
    -- each of the two changes to the files fails because of the files
    rw [FailsWith, outcome_save hprint] at h
    split at h
    · cases h
      cases hcause
    · split at h <;> cases h
      cases hcause

theorem of_failsWith_saveEmpty (h : FailsWith (saveEmpty format path) machine cause machine')
    (hcause : cause.isFromFiles = false) : print format [] = .error cause ∧ machine' = machine := by
  rcases failsWith_bind.mp h with hsave | ⟨_, _, -, hpure⟩
  · exact of_failsWith_save hsave hcause
  · exact absurd hpure failsWith_pure

theorem failsWith_isPresent_bind {next : Bool → MachineStep StoreError Store} :
    FailsWith (Disk.isPresent path >>= next) machine cause machine' ↔
      FailsWith (next (machine.files.lookup path).toBool) machine cause machine' := by
  rw [failsWith_bind]
  constructor
  · rintro (hlook | ⟨present, between, hpresent, h⟩)
    · exact absurd hlook failsWith_lift
    · obtain ⟨rfl, rfl⟩ := yields_isPresent.mp hpresent
      exact h
  · exact fun h => .inr ⟨_, machine, yields_isPresent.mpr ⟨rfl, rfl⟩, h⟩

/-- When a store could not be loaded for another reason than the files, there is none, or there is
something that is none. -/
theorem of_failsWith_load (h : FailsWith (load format path) machine cause machine')
    (hcause : cause.isFromFiles = false) :
    (cause = .notFound path ∨ (machine.files.lookup path).toBool = true) ∧ machine' = machine := by
  rcases failsWith_bind.mp h with hread | ⟨found, _, hread, hrest⟩
  · exact absurd ⟨cause, hread⟩ fails_readText
  obtain ⟨rfl, rfl⟩ := yields_readText.mp hread
  split at hrest
  · obtain ⟨rfl, rfl⟩ := failsWith_throw.mp hrest
    exact ⟨.inl rfl, rfl⟩
  · obtain ⟨rfl, -⟩ := failsWith_throw.mp hrest
    cases hcause
  · next text htext =>
    rcases failsWith_bind.mp hrest with hparse | ⟨_, _, -, hpure⟩
    · obtain ⟨-, rfl⟩ := failsWith_liftExcept.mp hparse
      exact ⟨.inr (lookup_toBool_of_textOf htext), rfl⟩
    · exact absurd hpure failsWith_pure

theorem of_failsWith_init (h : FailsWith (init format path) machine cause machine')
    (hcause : cause.isFromFiles = false) :
    (if (machine.files.lookup path).toBool then cause = .alreadyExists path
      else print format [] = .error cause) ∧ machine' = machine := by
  rw [init, failsWith_isPresent_bind] at h
  split at h
  · next hthere =>
    obtain ⟨rfl, rfl⟩ := failsWith_throw.mp h
    exact ⟨by rw [if_pos hthere], rfl⟩
  · next hmissing =>
    rw [if_neg hmissing]
    exact of_failsWith_saveEmpty h hcause

theorem of_failsWith_clear (h : FailsWith (clear format path) machine cause machine')
    (hcause : cause.isFromFiles = false) :
    (if (machine.files.lookup path).toBool then print format [] = .error cause
      else cause = .notFound path) ∧ machine' = machine := by
  rw [clear, failsWith_isPresent_bind] at h
  split at h
  · next hthere =>
    rw [if_pos hthere]
    exact of_failsWith_saveEmpty h hcause
  · next hmissing =>
    obtain ⟨rfl, rfl⟩ := failsWith_throw.mp h
    exact ⟨by rw [if_neg hmissing], rfl⟩

theorem of_failsWith_loadOrInit (h : FailsWith (loadOrInit format path) machine cause machine')
    (hcause : cause.isFromFiles = false) :
    if (machine.files.lookup path).toBool then FailsWith (load format path) machine cause machine'
    else print format [] = .error cause ∧ machine' = machine := by
  rw [loadOrInit, failsWith_isPresent_bind] at h
  split at h
  · next hthere => rwa [if_pos hthere]
  · next hmissing =>
    have hinit := of_failsWith_init h hcause
    rw [if_neg hmissing] at hinit
    rwa [if_neg hmissing]

/-! ## One task -/

namespace Memory.Mirrors

variable {memory : Memory} {files files' : FileSystem} {task : Task}

/-- A list that is kept is one that a text was written for. -/
theorem present (h : Mirrors format path memory store files) :
    (files.lookup path).toBool = memory.kept.isSome := by
  cases hkept : memory.kept with
  | none => exact h.missing hkept
  | some kept => exact (h.holds kept hkept).lookup_toBool

/-- Only what is at the path of the store matters. -/
theorem congr (h : Mirrors format path memory store files)
    (hlookup : files'.lookup path = files.lookup path) :
    Mirrors format path memory store files' where
  store_eq := h.store_eq
  working_keys := h.working_keys
  missing := fun hkept => by rw [hlookup, h.missing hkept]
  holds := fun kept hkept => (h.holds kept hkept).congr hlookup
  kept_keys := h.kept_keys

/-- The list that is kept is worked on. -/
theorem reload (h : Mirrors format path memory store files)
    (hkept : memory.kept = some declarations) :
    Mirrors format path { memory with working := declarations.map Declaration.withoutBlanks }
      ⟨path, declarations.map Declaration.withoutBlanks⟩ files where
  store_eq := rfl
  working_keys := by
    simp only [List.mem_map]
    rintro _ ⟨d, hd, rfl⟩
    exact h.kept_keys declarations hkept d hd
  missing := h.missing
  holds := h.holds
  kept_keys := h.kept_keys

/-- A list that was saved is kept. -/
theorem of_replaces (h : Replaces format ⟨path, declarations⟩ machine machine')
    (hkeys : ∀ d ∈ declarations, Declaration.isVariableKey d.key = true) :
    ∃ memory', keep format declarations = .ok memory' ∧
      Mirrors format path memory' ⟨path, declarations⟩ machine'.files := by
  have hprint : ∃ text, print format declarations = .ok text :=
    let ⟨text, _, htext, _⟩ := h
    ⟨text, htext⟩
  obtain ⟨text, htext⟩ := hprint
  refine ⟨⟨declarations, some declarations⟩, by rw [keep, htext]; rfl, rfl, hkeys, nofun, ?_, ?_⟩
  · rintro _ ⟨⟩
    exact h.holds
  · rintro _ ⟨⟩
    exact hkeys

/-- The list that is kept is the one that is found in the file. -/
theorem of_found (hformat : format.Lossless) (h : Mirrors format path memory store files)
    (hfound : Found format path files store') :
    ∃ kept, memory.kept = some kept ∧
      Mirrors format path { memory with working := kept.map Declaration.withoutBlanks } store'
        files := by
  have hpresent := h.present
  have ⟨text, htext, _⟩ := hfound
  rw [lookup_toBool_of_textOf htext] at hpresent
  obtain ⟨kept, hkept⟩ := Option.isSome_iff_exists.mp hpresent.symm
  obtain rfl :=
    ((h.holds kept hkept).found_iff_of_lossless hformat (h.kept_keys kept hkept)).mp hfound
  exact ⟨kept, hkept, h.reload hkept⟩

theorem step_add (d : Declaration) (policy : Policy) :
    memory.step format path (.add d policy) =
      ((⟨path, memory.working⟩ : Store).add d policy).map fun (_, changed) =>
        { memory with working := changed.declarations } := by
  rw [step, add]
  cases addTo memory.working d policy <;> rfl

/-- **What a task does, it does in memory, too.** -/
theorem done (hformat : format.Lossless) (h : Mirrors format path memory store machine.files)
    (htask : ∀ d policy, task = .add d policy → Declaration.isVariableKey d.key = true)
    (hyields : Yields (task.perform format store) machine store' machine') :
    ∃ memory', memory.step format path task = .ok memory' ∧
      Mirrors format path memory' store' machine'.files := by
  have hpresent := h.present
  obtain rfl := h.store_eq
  cases task with
  | add d policy =>
    obtain ⟨⟨_, changed⟩, _, hcall, hpure⟩ := yields_bind.mp hyields
    obtain ⟨hadd, rfl⟩ := yields_liftExcept.mp hcall
    obtain ⟨rfl, rfl⟩ := yields_pure.mp hpure
    obtain ⟨hpath, -, hmem⟩ := mem_of_add hadd
    refine ⟨{ memory with working := changed.declarations }, by rw [step_add, hadd]; rfl, ?_,
      fun e he => ?_, h.missing, h.holds, h.kept_keys⟩
    · obtain ⟨_, working⟩ := changed
      obtain rfl : _ = path := hpath
      rfl
    · rcases hmem e he with rfl | hold
      · exact htask e policy rfl
      · exact h.working_keys e hold
  | file operation =>
    cases operation with
    | load =>
      obtain ⟨rfl, hfound⟩ := yields_load_iff.mp hyields
      obtain ⟨kept, hkept, hmirrors⟩ := h.of_found hformat hfound
      exact ⟨_, by rw [step, hkept], hmirrors⟩
    | loadOrInit =>
      have hopened := yields_loadOrInit_iff.mp hyields
      rw [hpresent] at hopened
      cases hkept : memory.kept with
      | none =>
        rw [hkept] at hopened
        obtain ⟨rfl, hreplaces⟩ := hopened
        rw [step, hkept]
        exact of_replaces hreplaces (by simp)
      | some kept =>
        rw [hkept] at hopened
        obtain ⟨rfl, hfound⟩ := hopened
        obtain ⟨kept', hkept', hmirrors⟩ := h.of_found hformat hfound
        exact ⟨_, by rw [step, hkept'], hmirrors⟩
    | init =>
      obtain ⟨hmissing, rfl, hreplaces⟩ := yields_init_iff.mp hyields
      have hkept : memory.kept = none := by simpa [hpresent] using hmissing
      rw [step, hkept]
      exact of_replaces hreplaces (by simp)
    | clear =>
      obtain ⟨hthere, rfl, hreplaces⟩ := yields_clear_iff.mp hyields
      rw [hpresent] at hthere
      obtain ⟨kept, hkept⟩ := Option.isSome_iff_exists.mp hthere
      rw [step, hkept]
      exact of_replaces hreplaces (by simp)
    | save =>
      obtain ⟨_, _, hsave, hpure⟩ := yields_bind.mp hyields
      obtain ⟨rfl, rfl⟩ := yields_pure.mp hpure
      exact of_replaces (yields_save_iff.mp hsave) h.working_keys

/-- **What is refused is refused in memory, too, for the same reason. It changes nothing.** -/
theorem refused (hformat : format.Lossless) (h : Mirrors format path memory store machine.files)
    (hfails : FailsWith (task.perform format store) machine cause machine')
    (hcause : cause.isFromFiles = false) :
    memory.step format path task = .error cause ∧ machine' = machine := by
  have hpresent := h.present
  obtain rfl := h.store_eq
  -- what is kept can be loaded
  have hload : ∀ kept, memory.kept = some kept →
      ¬FailsWith (load format path) machine cause machine' := by
    intro kept hkept hfails
    have hyields := (h.holds kept hkept).yields_load hformat (h.kept_keys kept hkept)
    rw [FailsWith, hyields] at hfails
    cases hfails
  cases task with
  | add d policy =>
    rcases failsWith_bind.mp hfails with hcall | ⟨_, _, -, hpure⟩
    · obtain ⟨hadd, rfl⟩ := failsWith_liftExcept.mp hcall
      exact ⟨by rw [step_add, hadd]; rfl, rfl⟩
    · exact absurd hpure failsWith_pure
  | file operation =>
    cases operation with
    | load =>
      obtain ⟨hmissing, rfl⟩ := of_failsWith_load hfails hcause
      cases hkept : memory.kept with
      | none =>
        obtain rfl : cause = .notFound path := by simpa [hpresent, hkept] using hmissing
        exact ⟨by rw [step, hkept], rfl⟩
      | some kept => exact absurd hfails (hload kept hkept)
    | loadOrInit =>
      have hrefused := of_failsWith_loadOrInit hfails hcause
      rw [hpresent] at hrefused
      cases hkept : memory.kept with
      | none =>
        rw [hkept] at hrefused
        exact ⟨by rw [step, hkept, keep_eq_error hrefused.1], hrefused.2⟩
      | some kept =>
        rw [hkept] at hrefused
        exact absurd hrefused (hload kept hkept)
    | init =>
      obtain ⟨hrefused, rfl⟩ := of_failsWith_init hfails hcause
      rw [hpresent] at hrefused
      cases hkept : memory.kept with
      | none =>
        rw [hkept] at hrefused
        exact ⟨by rw [step, hkept, keep_eq_error hrefused], rfl⟩
      | some kept =>
        rw [hkept] at hrefused
        exact ⟨by rw [step, hkept, hrefused], rfl⟩
    | clear =>
      obtain ⟨hrefused, rfl⟩ := of_failsWith_clear hfails hcause
      rw [hpresent] at hrefused
      cases hkept : memory.kept with
      | none =>
        rw [hkept] at hrefused
        exact ⟨by rw [step, hkept, hrefused], rfl⟩
      | some kept =>
        rw [hkept] at hrefused
        exact ⟨by rw [step, hkept, keep_eq_error hrefused], rfl⟩
    | save =>
      rcases failsWith_bind.mp hfails with hsave | ⟨_, _, -, hpure⟩
      · obtain ⟨hprint, rfl⟩ := of_failsWith_save hsave hcause
        exact ⟨by rw [step, keep_eq_error hprint], rfl⟩
      · exact absurd hpure failsWith_pure

end Memory.Mirrors

/-! ## Many tasks -/

namespace Session

variable {start : Machine} {tasks : List Task} {task : Task}

theorem run_concat (tasks : List Task) (task : Task) :
    Memory.run format path (tasks ++ [task]) =
      ((Memory.run format path tasks).step format path task).toOption.getD
        (Memory.run format path tasks) := by
  rw [Memory.run, List.foldl_append]
  rfl

theorem mirrors (hformat : format.Lossless) (hmissing : (start.files.lookup path).toBool = false)
    (h : Session format path start tasks store machine)
    (hkeys : ∀ d policy, .add d policy ∈ tasks → Declaration.isVariableKey d.key = true) :
    (Memory.run format path tasks).Mirrors format path store machine.files := by
  induction h with
  | nil =>
    exact ⟨rfl, by simp [Memory.run], fun _ => hmissing, by simp [Memory.run], by simp [Memory.run]⟩
  | done _ hyields ih =>
    have hbefore := ih fun d policy hmem => hkeys d policy (List.mem_append_left _ hmem)
    obtain ⟨memory', hstep, hafter⟩ := hbefore.done hformat
      (fun d policy heq => hkeys d policy (by simp [heq])) hyields
    rw [run_concat, hstep]
    exact hafter
  | refused _ hfails hcause ih =>
    have hbefore := ih fun d policy hmem => hkeys d policy (List.mem_append_left _ hmem)
    obtain ⟨hstep, rfl⟩ := hbefore.refused hformat hfails hcause
    rw [run_concat, hstep]
    exact hbefore
  | elsewhere _ hlookup ih => exact (ih hkeys).congr hlookup

/--
**A store and its file are two lists in memory.**

At the start nothing is at the path, and every key that is added names a variable. Then the store
holds the list that is worked on in memory after the same tasks. If no list is kept there, nothing
is at the path. If one is, the file holds a text which is read as that list without its blanks. It
is the list that is loaded, and to save it again writes the same text.

The next task ends well or is refused just as in memory, and changes nothing if it is refused.
-/
theorem refines_memory (hformat : format.Lossless)
    (hmissing : (start.files.lookup path).toBool = false)
    (h : Session format path start tasks store machine)
    (hkeys : ∀ d policy, .add d policy ∈ tasks → d.key ≠ "" ∧ d.key ≠ optionsKey) :
    let memory := Memory.run format path tasks
    store = ⟨path, memory.working⟩ ∧
      (memory.kept = none → (machine.files.lookup path).toBool = false) ∧
      (∀ kept, memory.kept = some kept →
        let found : Store := ⟨path, kept.map Declaration.withoutBlanks⟩
        ∃ text, machine.files.read path = .ok text.toUTF8 ∧
          parse format text = .ok found.declarations ∧
          Yields (load format path) machine found machine ∧
          print format found.declarations = .ok text ∧
          ∀ after, Yields (save format found) machine () after →
            after.files.read path = .ok text.toUTF8) ∧
      (∀ task store' after, (∀ d policy, task = .add d policy → d.key ≠ "" ∧ d.key ≠ optionsKey) →
        Yields (task.perform format store) machine store' after →
        ∃ memory', memory.step format path task = .ok memory' ∧ store' = ⟨path, memory'.working⟩) ∧
      (∀ task cause after, FailsWith (task.perform format store) machine cause after →
        cause.isFromFiles = false →
        memory.step format path task = .error cause ∧ after = machine) := by
  intro memory
  have hmirrors : memory.Mirrors format path store machine.files := h.mirrors hformat hmissing
    fun d policy hmem => (Declaration.isVariableKey_iff d.key).mpr (hkeys d policy hmem)
  refine ⟨hmirrors.store_eq, hmirrors.missing, fun kept hkept => ?_,
    fun task store' after htask hyields => ?_,
    fun task cause after => hmirrors.refused hformat⟩
  · have hholds := hmirrors.holds kept hkept
    have hyields := hholds.yields_load hformat (hmirrors.kept_keys kept hkept)
    obtain ⟨text, hwrite, hread⟩ := hholds
    have hprint : print format (kept.map Declaration.withoutBlanks) = .ok text := by
      rw [print_withoutBlanks, print_eq_ok_iff, hwrite]
    have hparse : parse format text = .ok (kept.map Declaration.withoutBlanks) :=
      parse_eq_ok_iff.mpr ⟨_, hformat kept text hwrite,
        (normalizeFrom_map_toRaw kept 0 _).mpr ⟨hmirrors.kept_keys kept hkept, rfl⟩⟩
    refine ⟨text, hread, hparse, hyields, hprint, fun after hsave => ?_⟩
    obtain ⟨again, _, hagain, -, -, -, hsaved, -⟩ := (yields_save_iff.mp hsave).exists_text
    obtain rfl : again = text := Except.ok.inj (hagain.symm.trans hprint)
    exact hsaved
  · obtain ⟨memory', hstep, hafter⟩ := hmirrors.done hformat
      (fun d policy heq => (Declaration.isVariableKey_iff d.key).mpr (htask d policy heq)) hyields
    exact ⟨memory', hstep, hafter.store_eq⟩

/-- A store is made, a declaration with an empty title is added and saved, and the store cannot be
made once more. What is loaded then has no title. -/
theorem refines_memory_blank :
    let path := Path.ofText "store.yml"
    let host : Declaration := { key := "HOST", value := "example.com" }
    let titled : Declaration := { host with info := { title := some "" } }
    let tasks : List Task := [.file .init, .add titled .fail, .file .save, .file .init]
    let made := (MachineStep.outcome (save Edit.sampleFormat (empty path)) Edit.bareMachine).2
    let saved := (MachineStep.outcome (save Edit.sampleFormat ⟨path, [titled]⟩) made).2
    Edit.sampleFormat.Lossless ∧ (Edit.bareMachine.files.lookup path).toBool = false ∧
      (∀ d policy, .add d policy ∈ tasks → d.key ≠ "" ∧ d.key ≠ optionsKey) ∧
      Session Edit.sampleFormat path Edit.bareMachine tasks ⟨path, [titled]⟩ saved ∧
      Yields (load Edit.sampleFormat path) saved ⟨path, [host]⟩ saved := by
  intro path host titled tasks made saved
  have hformat : Edit.sampleFormat.Lossless := fun _ _ => Edit.sampleFormat_read
  have hmissing : (Edit.bareMachine.files.lookup path).toBool = false := by decide +kernel
  have hkeys : ∀ d policy, Task.add d policy ∈ tasks → d.key ≠ "" ∧ d.key ≠ optionsKey := by
    simp [tasks, titled, host, optionsKey]
  have hmade : Yields ((Task.file .init).perform Edit.sampleFormat (empty path)) Edit.bareMachine
      (empty path) made :=
    yields_init_iff.mpr ⟨hmissing, rfl, yields_save_iff.mp (yields_of_toBool (by decide +kernel))⟩
  have hadd : Yields ((Task.add titled .fail).perform Edit.sampleFormat (empty path)) made
      ⟨path, [titled]⟩ made :=
    yields_bind.mpr ⟨_, made, yields_liftExcept.mpr ⟨rfl, rfl⟩, yields_pure.mpr ⟨rfl, rfl⟩⟩
  have hsave : Yields ((Task.file .save).perform Edit.sampleFormat ⟨path, [titled]⟩) made
      ⟨path, [titled]⟩ saved :=
    yields_bind.mpr ⟨(), saved, yields_of_toBool (by decide +kernel), yields_pure.mpr ⟨rfl, rfl⟩⟩
  have hthere : (saved.files.lookup path).toBool = true := by decide +kernel
  have hagain : FailsWith ((Task.file .init).perform Edit.sampleFormat ⟨path, [titled]⟩) saved
      (.alreadyExists path) saved := by
    refine failsWith_isPresent_bind.mpr ?_
    rw [if_pos hthere]
    exact failsWith_throw.mpr ⟨rfl, rfl⟩
  have hsession : Session Edit.sampleFormat path Edit.bareMachine tasks ⟨path, [titled]⟩ saved :=
    .refused (.done (.done (.done .nil hmade) hadd) hsave) hagain rfl
  obtain ⟨_, -, -, hload, -⟩ :=
    (refines_memory hformat hmissing hsession hkeys).2.2.1 [titled] rfl
  exact ⟨hformat, hmissing, hkeys, hsession, hload⟩

end Session

end Store

end OrderedEnv
