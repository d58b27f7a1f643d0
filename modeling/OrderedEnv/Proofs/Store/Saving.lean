import OrderedEnv.Proofs.Declaration.RoundTrip
import OrderedEnv.Proofs.FileSystem
import OrderedEnv.Proofs.Machine
import OrderedEnv.Proofs.Store.Adding
import OrderedEnv.Proofs.Text.Utf8
import OrderedEnv.Store.File

/-!
# Saved stores

A store is saved as a text and loaded from it. What the format of the text is asked for is that
declarations are read back as they were written (`StoreFormat.ReadsBack`). Even so not everything
that can be saved can be loaded: a key may name no variable (`Store.Holds.found_iff`).
-/

namespace OrderedEnv

/-- Declarations without descriptions are read as they were written. -/
def StoreFormat.ReadsBack (format : StoreFormat) : Prop :=
  ∀ declarations : List Declaration, (∀ d ∈ declarations, d.info = {}) → ∀ text,
    format.write? (declarations.map Declaration.toRaw) = some text →
    format.read text = .ok (declarations.map Declaration.toRaw)

/-! ## Lists of declarations -/

/-- A written declaration at the front of a list is read back just if its key names a variable. -/
theorem normalizeFrom_toRaw_cons (d : Declaration) (index : Nat) (raws : List RawDeclaration)
    (declarations : List Declaration) :
    normalizeFrom index (d.toRaw :: raws) = .ok declarations ↔
      Declaration.isVariableKey d.key = true ∧
        ∃ rest, normalizeFrom (index + 1) raws = .ok rest ∧
          declarations = d.withoutBlanks :: rest := by
  rw [normalizeFrom]
  cases hkey : Declaration.isVariableKey d.key with
  | false =>
    have hnone : ¬∃ e, Declaration.ofRaw d.toRaw = .ok e := by
      rw [Declaration.exists_ofRaw_toRaw_iff, ← Declaration.isVariableKey_iff, hkey]
      simp
    cases he : Declaration.ofRaw d.toRaw with
    | error cause => simp
    | ok e => exact absurd ⟨e, he⟩ hnone
  | true =>
    obtain ⟨hne, hopts⟩ := (Declaration.isVariableKey_iff _).mp hkey
    rw [Declaration.ofRaw_toRaw hne hopts]
    cases normalizeFrom (index + 1) raws with
    | error cause => simp [Except.map]
    | ok rest => simp [Except.map, eq_comm]

/-- Written declarations are read back, without their blanks, just if every key names a variable. -/
theorem normalizeFrom_map_toRaw (declarations : List Declaration) (index : Nat)
    (declarations' : List Declaration) :
    normalizeFrom index (declarations.map Declaration.toRaw) = .ok declarations' ↔
      (∀ d ∈ declarations, Declaration.isVariableKey d.key = true) ∧
        declarations' = declarations.map Declaration.withoutBlanks := by
  induction declarations generalizing index declarations' with
  | nil => simp only [List.map_nil, normalizeFrom, Except.ok.injEq, eq_comm]; simp
  | cons d rest ih =>
    rw [List.map_cons, normalizeFrom_toRaw_cons, List.forall_mem_cons, and_assoc]
    simp only [ih, and_assoc, exists_and_left, exists_eq_left, List.map_cons]

/-- Declarations are written just like those without their blanks. -/
theorem map_toRaw_withoutBlanks (declarations : List Declaration) :
    (declarations.map Declaration.withoutBlanks).map Declaration.toRaw =
      declarations.map Declaration.toRaw := by
  rw [List.map_map]
  exact List.map_congr_left fun d _ => d.toRaw_withoutBlanks

theorem map_withoutBlanks_eq_self {declarations : List Declaration}
    (hinfo : ∀ d ∈ declarations, d.info = {}) :
    declarations.map Declaration.withoutBlanks = declarations := by
  refine (List.map_congr_left fun d hd => Declaration.withoutBlanks_eq_self ?_).trans
    (List.map_id declarations)
  rw [hinfo d hd]
  constructor <;> simp

namespace Store

/-! ## Adding -/

theorem mem_replaceAll {d e : Declaration} {declarations : List Declaration}
    (h : e ∈ replaceAll d declarations) : e = d ∨ e ∈ declarations := by
  obtain ⟨old, hold, he⟩ := List.mem_map.mp h
  split at he
  · exact .inl he.symm
  · exact .inr (he ▸ hold)

theorem mem_replaceAll_self {d : Declaration} {declarations : List Declaration}
    (h : 0 < countIn declarations d.key) : d ∈ replaceAll d declarations := by
  obtain ⟨old, hold, hkey⟩ := List.countP_pos_iff.mp h
  exact List.mem_map.mpr ⟨old, hold, if_pos (of_decide_eq_true hkey)⟩

/-- An added declaration is in the list, and nothing else is new. -/
theorem mem_of_add {store store' : Store} {d : Declaration} {policy : Policy} {done : Added}
    (h : store.add d policy = .ok (done, store')) :
    store'.path = store.path ∧ d ∈ store'.declarations ∧
      ∀ e ∈ store'.declarations, e = d ∨ e ∈ store.declarations := by
  obtain ⟨hpath, hadds⟩ := add_eq_ok_iff.mp h
  refine ⟨hpath, ?_⟩
  generalize store'.declarations = declarations at hadds
  cases hadds with
  | added _ _ | appended _ => simp [or_comm]
  | replaced hcount => exact ⟨mem_replaceAll_self hcount, fun e => mem_replaceAll⟩

/-! ## Text -/

theorem print_eq_ok_iff {format : StoreFormat} {declarations : List Declaration} {text : String} :
    print format declarations = .ok text ↔
      format.write? (declarations.map Declaration.toRaw) = some text := by
  unfold print
  split <;> simp [*]

theorem parse_eq_ok_iff {format : StoreFormat} {declarations : List Declaration} {text : String} :
    parse format text = .ok declarations ↔
      ∃ raws, format.read text = .ok raws ∧ normalize raws = .ok declarations := by
  unfold parse
  cases format.read text with
  | error cause => simp
  | ok raws => cases h : normalize raws <;> simp [h]

/-! ## Files -/

variable {format : StoreFormat} {path : Path} {store : Store} {declarations : List Declaration}
  {machine machine' : Machine}

/-- The file at a path holds the text of declarations. -/
def Holds (format : StoreFormat) (path : Path) (files : FileSystem)
    (declarations : List Declaration) : Prop :=
  ∃ text, format.write? (declarations.map Declaration.toRaw) = some text ∧
    files.read path = .ok text.toUTF8

/-- Whether it does can be seen from what the path leads to. -/
theorem Holds.congr {files files' : FileSystem} (h : files'.lookup path = files.lookup path)
    (hholds : Holds format path files declarations) : Holds format path files' declarations := by
  obtain ⟨text, hwrite, hread⟩ := hholds
  refine ⟨text, hwrite, ?_⟩
  rw [← hread, FileSystem.read, FileSystem.read, h]

theorem Holds.lookup_toBool {files : FileSystem} (h : Holds format path files declarations) :
    (files.lookup path).toBool = true := by
  obtain ⟨text, -, hread⟩ := h
  unfold FileSystem.read at hread
  cases hlookup : files.lookup path with
  | error cause => rw [hlookup] at hread; cases hread
  | ok entry => rfl

theorem yields_stage {text : String} :
    Yields (stage path text : MachineStep StoreError (Except FileError Unit)) machine (.ok ())
        machine' ↔
      ∃ files, machine.files.write (temporaryPath path) text.toUTF8 = .ok files ∧
        machine' = { machine with files } :=
  yields_change fun files => files.write (temporaryPath path) text.toUTF8

theorem yields_commit :
    Yields (commit path : MachineStep StoreError (Except FileError Unit)) machine (.ok ())
        machine' ↔
      ∃ files, machine.files.rename (temporaryPath path) path = .ok files ∧
        machine' = { machine with files } :=
  yields_change fun files => files.rename (temporaryPath path) path

/-! ## The two steps of a save -/

/-- The text of a store was written to its temporary file, which was then moved over the store. -/
def Replaces (format : StoreFormat) (store : Store) (machine machine' : Machine) : Prop :=
  ∃ text between, print format store.declarations = .ok text ∧
    Yields (stage store.path text : MachineStep StoreError (Except FileError Unit)) machine (.ok ())
      between ∧
    Yields (commit store.path : MachineStep StoreError (Except FileError Unit)) between (.ok ())
      machine'

theorem yields_save_iff :
    Yields (save format store : MachineStep StoreError Unit) machine () machine' ↔
      Replaces format store machine machine' := by
  constructor
  · intro h
    obtain ⟨text, printed, hprint, h⟩ := yields_bind.mp h
    obtain ⟨htext, rfl⟩ := yields_liftExcept.mp hprint
    obtain ⟨staged, between, hstage, h⟩ := yields_bind.mp h
    -- each of the two changes to the files ended well, or the error would have been thrown
    cases staged with
    | error cause => exact absurd (yields_bind.mp h) (by simp)
    | ok _ =>
      obtain ⟨committed, after, hcommit, h⟩ := yields_bind.mp h
      cases committed with
      | error cause => exact absurd h (by simp)
      | ok _ =>
        obtain ⟨-, rfl⟩ := yields_pure.mp h
        exact ⟨text, between, htext, hstage, hcommit⟩
  · rintro ⟨text, between, htext, hstage, hcommit⟩
    refine yields_bind.mpr ⟨text, _, yields_liftExcept.mpr ⟨htext, rfl⟩, ?_⟩
    refine yields_bind.mpr ⟨_, between, hstage, ?_⟩
    exact yields_bind.mpr ⟨_, machine', hcommit, yields_pure.mpr ⟨rfl, rfl⟩⟩

/-- **What was saved is in the file.** -/
theorem Replaces.holds (h : Replaces format store machine machine') :
    Holds format store.path machine'.files store.declarations := by
  obtain ⟨text, between, htext, hstage, hcommit⟩ := h
  obtain ⟨written, hwrite, rfl⟩ := yields_stage.mp hstage
  obtain ⟨moved, hrename, rfl⟩ := yields_commit.mp hcommit
  exact ⟨text, print_eq_ok_iff.mp htext, FileSystem.read_rename_write hwrite hrename⟩

theorem yields_saveEmpty_iff :
    Yields (saveEmpty format path : MachineStep StoreError Store) machine store machine' ↔
      store = empty path ∧ Replaces format (empty path) machine machine' := by
  constructor
  · intro h
    obtain ⟨_, saved, hsave, h⟩ := yields_bind.mp h
    obtain ⟨rfl, rfl⟩ := yields_pure.mp h
    exact ⟨rfl, yields_save_iff.mp hsave⟩
  · rintro ⟨rfl, h⟩
    exact yields_bind.mpr ⟨_, machine', yields_save_iff.mpr h, yields_pure.mpr ⟨rfl, rfl⟩⟩

/-! ## Making and clearing -/

/-- It is asked whether the path leads to something, and nothing changes. -/
theorem yields_isPresent_bind {next : Bool → MachineStep StoreError Store} :
    Yields (Disk.isPresent path >>= next) machine store machine' ↔
      Yields (next (machine.files.lookup path).toBool) machine store machine' := by
  rw [yields_bind]
  constructor
  · rintro ⟨present, between, hpresent, h⟩
    obtain ⟨rfl, rfl⟩ := yields_isPresent.mp hpresent
    exact h
  · exact fun h => ⟨_, machine, yields_isPresent.mpr ⟨rfl, rfl⟩, h⟩

theorem yields_init_iff :
    Yields (init format path : MachineStep StoreError Store) machine store machine' ↔
      (machine.files.lookup path).toBool = false ∧ store = empty path ∧
        Replaces format (empty path) machine machine' := by
  rw [init, yields_isPresent_bind]
  cases (machine.files.lookup path).toBool with
  | true => simp
  | false => simp [yields_saveEmpty_iff]

theorem yields_clear_iff :
    Yields (clear format path : MachineStep StoreError Store) machine store machine' ↔
      (machine.files.lookup path).toBool = true ∧ store = empty path ∧
        Replaces format (empty path) machine machine' := by
  rw [clear, yields_isPresent_bind]
  cases (machine.files.lookup path).toBool with
  | true => simp [yields_saveEmpty_iff]
  | false => simp

/-! ## Loading -/

/-- The store that loading finds in some files. -/
def Found (format : StoreFormat) (path : Path) (files : FileSystem) (store : Store) : Prop :=
  ∃ text, Disk.textOf (files.read path) = .ok text ∧
    ∃ declarations, parse format text = .ok declarations ∧ store = ⟨path, declarations⟩

/-- Loading changes nothing. -/
theorem yields_load_iff :
    Yields (load format path : MachineStep StoreError Store) machine store machine' ↔
      machine' = machine ∧ Found format path machine.files store := by
  constructor
  · intro h
    obtain ⟨found, between, hread, h⟩ := yields_bind.mp h
    obtain ⟨rfl, rfl⟩ := yields_readText.mp hread
    split at h
    · exact absurd h (by simp)
    · exact absurd h (by simp)
    · next text htext =>
      obtain ⟨declarations, between, hparse, h⟩ := yields_bind.mp h
      obtain ⟨hfound, rfl⟩ := yields_liftExcept.mp hparse
      obtain ⟨rfl, rfl⟩ := yields_pure.mp h
      exact ⟨rfl, text, htext, declarations, hfound, rfl⟩
  · rintro ⟨rfl, text, htext, declarations, hparse, rfl⟩
    refine yields_bind.mpr ⟨_, _, yields_readText.mpr ⟨rfl, rfl⟩, ?_⟩
    rw [htext]
    exact yields_bind.mpr ⟨_, _, yields_liftExcept.mpr ⟨hparse, rfl⟩, yields_pure.mpr ⟨rfl, rfl⟩⟩

/-- What is found in a text that is read as declarations were written. -/
theorem found_iff_of_read {files : FileSystem} {text : String}
    (htext : files.read path = .ok text.toUTF8)
    (hread : format.read text = .ok (declarations.map Declaration.toRaw)) :
    Found format path files store ↔
      store = ⟨path, declarations.map Declaration.withoutBlanks⟩ ∧
        ∀ d ∈ declarations, Declaration.isVariableKey d.key = true := by
  have hfound : Disk.textOf (files.read path) = .ok text := by
    simp only [htext, Disk.textOf, Except.bind, Text.fromUTF8?_toUTF8]
  simp only [Found, hfound, Except.ok.injEq, exists_eq_left', parse_eq_ok_iff, hread, normalize,
    normalizeFrom_map_toRaw]
  constructor
  · rintro ⟨found, ⟨hkeys, rfl⟩, hstore⟩
    exact ⟨hstore, hkeys⟩
  · rintro ⟨hstore, hkeys⟩
    exact ⟨_, ⟨hkeys, rfl⟩, hstore⟩

/-- **What was saved can be loaded just if every key names a variable.** -/
theorem Holds.found_iff {files : FileSystem} (hformat : format.ReadsBack)
    (h : Holds format path files declarations) (hinfo : ∀ d ∈ declarations, d.info = {}) :
    Found format path files store ↔
      store = ⟨path, declarations⟩ ∧
        ∀ d ∈ declarations, Declaration.isVariableKey d.key = true := by
  obtain ⟨text, hwrite, htext⟩ := h
  rw [found_iff_of_read htext (hformat declarations hinfo text hwrite),
    map_withoutBlanks_eq_self hinfo]

/-- The store that is worked on: an empty one where nothing is, and else the one that is found. -/
def Opened (format : StoreFormat) (path : Path) (files : FileSystem) (store : Store) : Prop :=
  if (files.lookup path).toBool then Found format path files store else store = empty path

theorem Opened.path_eq {files : FileSystem} (h : Opened format path files store) :
    store.path = path := by
  unfold Opened at h
  split at h
  · obtain ⟨text, -, declarations, -, rfl⟩ := h
    rfl
  · rw [h]
    rfl

theorem yields_loadOrInit_iff :
    Yields (loadOrInit format path : MachineStep StoreError Store) machine store machine' ↔
      if (machine.files.lookup path).toBool then
        machine' = machine ∧ Found format path machine.files store
      else store = empty path ∧ Replaces format (empty path) machine machine' := by
  rw [loadOrInit, yields_isPresent_bind]
  cases hpresent : (machine.files.lookup path).toBool with
  | true => simp [yields_load_iff]
  | false => simp [yields_init_iff, hpresent]

theorem opened_of_yields_loadOrInit
    (h : Yields (loadOrInit format path : MachineStep StoreError Store) machine store machine') :
    Opened format path machine.files store := by
  have hmade := yields_loadOrInit_iff.mp h
  unfold Opened
  split at hmade
  · next hthere =>
    rw [if_pos hthere]
    exact hmade.2
  · next hmissing =>
    rw [if_neg hmissing]
    exact hmade.1

end Store

end OrderedEnv
