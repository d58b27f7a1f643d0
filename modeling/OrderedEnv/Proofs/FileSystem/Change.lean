import Mathlib.Data.Set.Insert
import Mathlib.Order.Defs.Unbundled
import OrderedEnv.Proofs.FileSystem
import OrderedEnv.Proofs.Path

/-!
# What a change to the files leaves alone

A change is given by the files before and after it. It may show at some paths only (`ChangesOnly`),
and it may be that nothing is lost by it (`Extends`). Both are preorders, so they hold of a whole
task if they hold of its steps.

The places that two paths lead to are told apart by `resolve_appendBytes`: the path of a temporary
file never leads to the place of the file that it is made for.
-/

namespace OrderedEnv.FileSystem

variable {fs fs' fs'' : FileSystem} {path source target : Path} {place : Location}
  {content : ByteArray}

/-! ## Looking -/

/-- A path to a place where nothing changed leads to what it led to. -/
theorem lookup_eq_of_get?_eq (h : fs.KeepsDirectories fs') (hpath : fs.resolve path = .ok place)
    (hget : fs'.get? place = fs.get? place) : fs'.lookup path = fs.lookup path := by
  rw [lookup, lookup, hpath, resolve_of_keepsDirectories h hpath]
  simp only [bind, Except.bind, hget]

theorem lookup_eq_file_iff :
    fs.lookup path = .ok (.file content) ↔
      ∃ place, fs.resolve path = .ok place ∧ fs.get? place = some (.file content) ∧
        path.endsInSlash = false := by
  unfold lookup
  cases hpath : fs.resolve path with
  | error cause => simp [bind, Except.bind]
  | ok place =>
    cases hget : fs.get? place with
    | none => simp [bind, Except.bind, hget]
    | some entry =>
      cases entry with
      | directory => simp [bind, Except.bind, hget]
      | file found => cases hslash : path.endsInSlash <;> simp [bind, Except.bind, hget]

/-- The empty path leads nowhere. -/
theorem lookup_of_isEmpty (h : path.isEmpty = true) : fs.lookup path = .error .notFound := by
  have hbytes : path.bytes = [] := List.isEmpty_iff.mp h
  unfold lookup resolve refuse
  rw [h, hbytes]
  rfl

theorem read_eq_ok_iff : fs.read path = .ok content ↔ fs.lookup path = .ok (.file content) := by
  unfold read
  cases fs.lookup path with
  | error cause => simp [bind, Except.bind]
  | ok entry => cases entry <;> simp [bind, Except.bind]

/-- What is written to a path is found there. -/
theorem read_write (h : fs.write path content = .ok fs') : fs'.read path = .ok content := by
  obtain ⟨place, hw⟩ := exists_writes h
  have hpath := resolve_of_keepsDirectories hw.keepsDirectories hw.resolve
  exact read_eq_ok_iff.mpr (lookup_eq_file_iff.mpr ⟨place, hpath, hw.get?_place, hw.endsInSlash⟩)

/-! ## Changes at some paths -/

/-- Every place that changed is one that some of the paths lead to, and directories stay. -/
structure ChangesOnly (paths : Set Path) (fs fs' : FileSystem) : Prop
    extends KeepsDirectories fs fs' where
  exists_resolve : ∀ place, fs'.get? place ≠ fs.get? place →
    ∃ path ∈ paths, fs'.resolve path = .ok place

theorem ChangesOnly.mono {paths paths' : Set Path} (hsub : paths ⊆ paths')
    (h : fs.ChangesOnly paths fs') : fs.ChangesOnly paths' fs' where
  toKeepsDirectories := h.toKeepsDirectories
  exists_resolve := by
    intro place hplace
    obtain ⟨path, hmem, hpath⟩ := h.exists_resolve place hplace
    exact ⟨path, hsub hmem, hpath⟩

instance (paths : Set Path) : IsPreorder FileSystem (ChangesOnly paths) where
  refl fs := ⟨.refl fs, fun _ hne => absurd rfl hne⟩
  trans fs fs' fs'' h h' := by
    refine ⟨h.toKeepsDirectories.trans h'.toKeepsDirectories, fun place hplace => ?_⟩
    by_cases hlast : fs''.get? place = fs'.get? place
    · -- the place changed before, and the path that led to it leads to it still
      obtain ⟨path, hmem, hpath⟩ := h.exists_resolve place (hlast ▸ hplace)
      exact ⟨path, hmem, resolve_of_keepsDirectories h'.toKeepsDirectories hpath⟩
    · exact h'.exists_resolve place hlast

/-- Moreover, whatever was there is there still. -/
structure Extends (paths : Set Path) (fs fs' : FileSystem) : Prop
    extends ChangesOnly paths fs fs' where
  entry : ∀ place entry, fs.get? place = some entry → fs'.get? place = some entry

instance (paths : Set Path) : IsPreorder FileSystem (Extends paths) where
  refl fs := ⟨Std.Refl.refl fs, fun _ _ h => h⟩
  trans _ _ _ h h' := ⟨IsTrans.trans _ _ _ h.toChangesOnly h'.toChangesOnly,
    fun place entry hentry => h'.entry place entry (h.entry place entry hentry)⟩

/-- A file that was there is still what its path leads to. -/
theorem Extends.lookup_file {paths : Set Path} (h : fs.Extends paths fs')
    (hfile : fs.lookup path = .ok (.file content)) :
    fs'.lookup path = .ok (.file content) := by
  obtain ⟨place, hpath, hget, hslash⟩ := lookup_eq_file_iff.mp hfile
  exact lookup_eq_file_iff.mpr ⟨place, resolve_of_keepsDirectories h.toKeepsDirectories hpath,
    h.entry place _ hget, hslash⟩

theorem changesOnly_insert {paths : Set Path} {entry : Entry} (hmem : path ∈ paths)
    (hpath : fs.resolve path = .ok place) (hplace : fs.get? place ≠ some .directory) :
    fs.ChangesOnly paths (fs.insert place entry) where
  toKeepsDirectories := keepsDirectories_insert entry hplace
  exists_resolve := by
    intro other hother
    rw [get?_insert fs (ne_nil_of_get?_ne hplace)] at hother
    split at hother
    · next heq =>
      subst heq
      exact ⟨path, hmem, resolve_of_keepsDirectories (keepsDirectories_insert entry hplace) hpath⟩
    · exact absurd rfl hother

theorem changesOnly_erase {paths : Set Path} (hmem : path ∈ paths)
    (hpath : fs.resolve path = .ok place) (hplace : fs.get? place ≠ some .directory) :
    fs.ChangesOnly paths (fs.erase place) where
  toKeepsDirectories := keepsDirectories_erase hplace
  exists_resolve := by
    intro other hother
    rw [get?_erase fs (ne_nil_of_get?_ne hplace)] at hother
    split at hother
    · next heq =>
      subst heq
      exact ⟨path, hmem, resolve_of_keepsDirectories (keepsDirectories_erase hplace) hpath⟩
    · exact absurd rfl hother

/-! ## The operations -/

theorem changesOnly_write (h : fs.write path content = .ok fs') : fs.ChangesOnly {path} fs' := by
  obtain ⟨place, hw⟩ := exists_writes h
  rw [hw.eq]
  exact changesOnly_insert rfl hw.resolve hw.notDirectory

theorem changesOnly_rename (h : fs.rename source target = .ok fs') :
    fs.ChangesOnly {source, target} fs' := by
  obtain ⟨origin, place, content, hr⟩ := exists_renames h
  have herase : fs.ChangesOnly {source, target} (fs.erase origin) :=
    changesOnly_erase (.inl rfl) hr.resolve_source hr.origin_notDirectory
  have hplace : (fs.erase origin).get? place ≠ some .directory := by
    rw [get?_erase fs (ne_nil_of_get?_ne hr.origin_notDirectory)]
    split
    · simp
    · exact hr.notDirectory
  rw [hr.eq]
  exact IsTrans.trans _ _ _ herase (changesOnly_insert (.inr rfl)
    (resolve_of_keepsDirectories herase.toKeepsDirectories hr.resolve_target) hplace)

/-- What is removed was a file. -/
theorem exists_removes (h : fs.remove path = .ok fs') :
    ∃ place content, fs.resolve path = .ok place ∧ fs.get? place = some (.file content) ∧
      path.endsInSlash = false ∧ fs' = fs.erase place := by
  unfold remove at h
  cases hpath : fs.resolve path with
  | error cause => rw [hpath] at h; cases h
  | ok place =>
    rw [hpath] at h
    change (if (!endsInName path) = true then _ else _) = _ at h
    split at h
    · cases h
    · split at h
      · cases h
      · cases h
      · next content hfile =>
        split at h
        · cases h
        · next hslash =>
          exact ⟨place, content, rfl, hfile, by simpa using hslash, (Except.ok.inj h).symm⟩

theorem changesOnly_remove (h : fs.remove path = .ok fs') : fs.ChangesOnly {path} fs' := by
  obtain ⟨place, content, hpath, hfile, -, rfl⟩ := exists_removes h
  exact changesOnly_erase rfl hpath (by simp [hfile])

/-- A path of which the file was removed leads to nothing. -/
theorem lookup_remove (h : fs.remove path = .ok fs') :
    (∃ content, fs.lookup path = .ok (.file content)) ∧ fs'.lookup path = .error .notFound := by
  obtain ⟨place, content, hpath, hfile, hslash, rfl⟩ := exists_removes h
  have hplace : fs.get? place ≠ some .directory := by simp [hfile]
  refine ⟨⟨content, lookup_eq_file_iff.mpr ⟨place, hpath, hfile, hslash⟩⟩, ?_⟩
  rw [lookup, resolve_of_keepsDirectories (keepsDirectories_erase hplace) hpath]
  simp [bind, Except.bind, get?_erase fs (ne_nil_of_get?_ne hplace)]

/-- A directory is made where nothing is. -/
theorem exists_makes (h : fs.makeDirectory path = .ok fs') :
    ∃ place, fs.resolve path = .ok place ∧ fs.get? place = none ∧
      fs' = fs.insert place .directory := by
  unfold makeDirectory at h
  cases hpath : fs.resolve path with
  | error cause => rw [hpath] at h; cases h
  | ok place =>
    rw [hpath] at h
    change (if (!endsInName path) = true then _ else _) = _ at h
    split at h
    · cases h
    · split at h
      · cases h
      · next hnone => exact ⟨place, rfl, hnone, (Except.ok.inj h).symm⟩

theorem extends_makeDirectory {paths : Set Path} (hmem : path ∈ paths)
    (h : fs.makeDirectory path = .ok fs') : fs.Extends paths fs' := by
  obtain ⟨place, hpath, hnone, rfl⟩ := exists_makes h
  have hplace : fs.get? place ≠ some .directory := by simp [hnone]
  refine ⟨changesOnly_insert hmem hpath hplace, fun other entry hentry => ?_⟩
  rw [get?_insert fs (ne_nil_of_get?_ne hplace), if_neg, hentry]
  rintro rfl
  rw [hnone] at hentry
  cases hentry

/-! ## Two paths -/

theorem get?_of_step {name : Name} {next : Location} (h : fs.step place name = .ok next) :
    fs.get? place = some .directory := by
  unfold step at h
  split at h
  · cases h
  · cases h
  · assumption

theorem eq_cons_of_step {name : Name} {next : Location} (hlength : 2 < name.length)
    (h : fs.step place name = .ok next) : name.length ≤ maxName ∧ next = name :: place := by
  have hhere : name ≠ Name.here := by
    rintro rfl
    simp [Name.here] at hlength
  have hup : name ≠ Name.up := by
    rintro rfl
    simp [Name.up] at hlength
  simp only [step, get?_of_step h, if_neg hhere, if_neg hup] at h
  split at h
  · cases h
  · next hle => exact ⟨by omega, (Except.ok.inj h).symm⟩

/-- A step along a name that is not too long ends where it began, above that, or at the name. -/
theorem exists_step (hplace : fs.get? place = some .directory) {name : Name}
    (hlength : name.length ≤ maxName) :
    ∃ next, fs.step place name = .ok next ∧
      (next = place ∨ next = place.tail ∨ next = name :: place) := by
  unfold step
  rw [hplace]
  by_cases hhere : name = Name.here
  · exact ⟨place, if_pos hhere, .inl rfl⟩
  · by_cases hup : name = Name.up
    · exact ⟨place.tail, by simp only [if_neg hhere, if_pos hup], .inr (.inl rfl)⟩
    · refine ⟨name :: place, ?_, .inr (.inr rfl)⟩
      simp only [if_neg hhere, if_neg hup, if_neg (Nat.not_lt.mpr hlength)]

theorem refuse_eq_ok_iff :
    refuse path = .ok () ↔
      path.bytes.contains 0 = false ∧ path.isEmpty = false ∧ path.bytes.length < maxPath := by
  unfold refuse
  cases path.bytes.contains 0 with
  | true => simp
  | false =>
    cases path.isEmpty with
    | true => simp
    | false =>
      by_cases hlength : maxPath ≤ path.bytes.length
      · simp [hlength]
      · simp [hlength, Nat.lt_of_not_le hlength]

theorem refuse_of_refuse_appendBytes {more : List UInt8} (hne : path.isEmpty = false)
    (h : refuse (path.appendBytes more) = .ok ()) : refuse path = .ok () := by
  obtain ⟨hzero, -, hlength⟩ := refuse_eq_ok_iff.mp h
  rw [Path.appendBytes, List.contains_append, Bool.or_eq_false_iff] at hzero
  rw [Path.appendBytes, List.length_append] at hlength
  exact refuse_eq_ok_iff.mpr ⟨hzero.1, hne, by omega⟩

theorem resolve_eq_ok_iff :
    fs.resolve path = .ok place ↔
      refuse path = .ok () ∧ path.names.foldlM fs.step (fs.origin path) = .ok place := by
  unfold resolve
  cases refuse path with
  | error cause => simp [bind, Except.bind]
  | ok _ => simp [bind, Except.bind]

theorem foldlM_step_concat_iff {front : List Name} {name : Name} {origin : Location} :
    (front ++ [name]).foldlM fs.step origin = .ok place ↔
      ∃ directory, front.foldlM fs.step origin = .ok directory ∧
        fs.step directory name = .ok place := by
  rw [List.foldlM_append]
  simp only [List.foldlM_cons, List.foldlM_nil, bind_pure]
  cases front.foldlM fs.step origin with
  | error cause => simp [bind, Except.bind]
  | ok directory => simp [bind, Except.bind]

/--
**A path that goes on leads to another place.**

The bytes behind the path are not the end of a name `.` or `..`, as there are three of them at
least.
-/
theorem resolve_appendBytes {more : List UInt8} (hslash : slash ∉ more) (hlength : 2 < more.length)
    (hne : path.isEmpty = false) (h : fs.resolve (path.appendBytes more) = .ok place) :
    ∃ other, fs.resolve path = .ok other ∧ other ≠ place := by
  have hmore : more ≠ [] := by
    rintro rfl
    simp at hlength
  obtain ⟨front, last, hnames, hnames'⟩ := path.names_appendBytes hslash hmore
  have horigin : fs.origin (path.appendBytes more) = fs.origin path := by
    obtain ⟨bytes⟩ := path
    cases bytes with
    | nil => simp [Path.isEmpty] at hne
    | cons b bs => rfl
  obtain ⟨hrefuse, hwalk⟩ := resolve_eq_ok_iff.mp h
  rw [hnames', horigin] at hwalk
  obtain ⟨directory, hfront, hstep⟩ := foldlM_step_concat_iff.mp hwalk
  have hlong : 2 < (last ++ more).length := by
    rw [List.length_append]
    omega
  obtain ⟨hle, rfl⟩ := eq_cons_of_step hlong hstep
  have hrefuse' := refuse_of_refuse_appendBytes hne hrefuse
  by_cases hlast : last = []
  · -- the path ends in a slash, and the other one goes on from the directory before it
    rw [if_pos hlast, List.append_nil] at hnames
    refine ⟨directory, resolve_eq_ok_iff.mpr ⟨hrefuse', hnames ▸ hfront⟩, ?_⟩
    exact (List.cons_ne_self _ _).symm
  · have hshort : last.length ≤ maxName := by
      rw [List.length_append] at hle
      omega
    obtain ⟨other, hother, hcases⟩ := exists_step (get?_of_step hstep) hshort
    rw [if_neg hlast] at hnames
    refine ⟨other, resolve_eq_ok_iff.mpr ⟨hrefuse', ?_⟩, ?_⟩
    · rw [hnames]
      exact foldlM_step_concat_iff.mpr ⟨directory, hfront, hother⟩
    · rcases hcases with rfl | rfl | rfl
      · exact (List.cons_ne_self _ _).symm
      · intro heq
        have hlen := congrArg List.length heq
        simp only [List.length_tail, List.length_cons] at hlen
        omega
      · simpa using hmore

end OrderedEnv.FileSystem
