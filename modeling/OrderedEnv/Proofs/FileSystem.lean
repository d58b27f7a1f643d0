import OrderedEnv.FileSystem

/-!
# What is found in a file system after a change

A path is walked along from directory to directory, so it leads to the same place as long as the
directories stay (`resolve_of_keepsDirectories`). Writing and moving files takes no directory away.
So what is written to one path and moved to another is found at the other path
(`read_rename_write`).
-/

namespace OrderedEnv.FileSystem

/-! ## Entries -/

@[simp] theorem get?_nil (fs : FileSystem) : fs.get? [] = some .directory := rfl

/-- The root cannot be given another entry. -/
theorem get?_insert (fs : FileSystem) {place : Location} (h : place ≠ []) (entry : Entry)
    (other : Location) :
    (fs.insert place entry).get? other = if place = other then some entry else fs.get? other := by
  cases other with
  | nil => rw [if_neg h, get?_nil, get?_nil]
  | cons name other =>
    show (fs.entries.insert place entry)[name :: other]? = _
    rw [Std.ExtTreeMap.getElem?_insert]
    simp only [Std.LawfulEqCmp.compare_eq_iff_eq]
    rfl

theorem get?_erase (fs : FileSystem) {place : Location} (h : place ≠ []) (other : Location) :
    (fs.erase place).get? other = if place = other then none else fs.get? other := by
  cases other with
  | nil => rw [if_neg h, get?_nil, get?_nil]
  | cons name other =>
    show (fs.entries.erase place)[name :: other]? = _
    rw [Std.ExtTreeMap.getElem?_erase]
    simp only [Std.LawfulEqCmp.compare_eq_iff_eq]
    rfl

/-! ## Walking -/

/-- Every directory is one still, and relative paths start where they did. -/
structure KeepsDirectories (fs fs' : FileSystem) : Prop where
  directory : ∀ place, fs.get? place = some .directory → fs'.get? place = some .directory
  workingDirectory : fs'.workingDirectory = fs.workingDirectory

theorem KeepsDirectories.refl (fs : FileSystem) : fs.KeepsDirectories fs where
  directory := fun _ hplace => hplace
  workingDirectory := rfl

theorem KeepsDirectories.trans {fs fs' fs'' : FileSystem} (h : fs.KeepsDirectories fs')
    (h' : fs'.KeepsDirectories fs'') : fs.KeepsDirectories fs'' where
  directory := fun place hplace => h'.directory place (h.directory place hplace)
  workingDirectory := h'.workingDirectory.trans h.workingDirectory

theorem keepsDirectories_insert {fs : FileSystem} {place : Location} (entry : Entry)
    (h : fs.get? place ≠ some .directory) : fs.KeepsDirectories (fs.insert place entry) where
  directory := by
    intro other hother
    have hne : place ≠ [] := by
      rintro rfl
      exact h (get?_nil fs)
    rw [get?_insert fs hne, if_neg, hother]
    rintro rfl
    exact h hother
  workingDirectory := rfl

theorem keepsDirectories_erase {fs : FileSystem} {place : Location}
    (h : fs.get? place ≠ some .directory) : fs.KeepsDirectories (fs.erase place) where
  directory := by
    intro other hother
    have hne : place ≠ [] := by
      rintro rfl
      exact h (get?_nil fs)
    rw [get?_erase fs hne, if_neg, hother]
    rintro rfl
    exact h hother
  workingDirectory := rfl

theorem step_of_keepsDirectories {fs fs' : FileSystem} (h : fs.KeepsDirectories fs')
    {place next : Location} {name : Name} (hstep : fs.step place name = .ok next) :
    fs'.step place name = .ok next := by
  unfold step at hstep ⊢
  cases hplace : fs.get? place with
  | none => simp [hplace] at hstep
  | some entry =>
    cases entry with
    | file content => simp [hplace] at hstep
    | directory =>
      rw [hplace] at hstep
      rw [h.directory place hplace]
      exact hstep

theorem foldlM_step_of_keepsDirectories {fs fs' : FileSystem} (h : fs.KeepsDirectories fs')
    {names : List Name} {origin place : Location}
    (hwalk : names.foldlM fs.step origin = .ok place) :
    names.foldlM fs'.step origin = .ok place := by
  induction names generalizing origin with
  | nil => exact hwalk
  | cons name names ih =>
    rw [List.foldlM_cons] at hwalk ⊢
    cases hstep : fs.step origin name with
    | error cause => rw [hstep] at hwalk; cases hwalk
    | ok next =>
      rw [hstep] at hwalk
      rw [step_of_keepsDirectories h hstep]
      exact ih hwalk

/-- **A path leads to the same place as long as the directories stay.** -/
theorem resolve_of_keepsDirectories {fs fs' : FileSystem} (h : fs.KeepsDirectories fs')
    {path : Path} {place : Location} (hpath : fs.resolve path = .ok place) :
    fs'.resolve path = .ok place := by
  have horigin : fs'.origin path = fs.origin path := by
    rw [origin, origin, h.workingDirectory]
  unfold resolve at hpath ⊢
  cases hrefuse : refuse path with
  | error cause => rw [hrefuse] at hpath; cases hpath
  | ok _ =>
    rw [hrefuse] at hpath
    rw [horigin]
    exact foldlM_step_of_keepsDirectories h hpath

/-! ## Writing and moving -/

variable {fs fs' fs'' : FileSystem} {path source target : Path} {content : ByteArray}

/-- What a write does, when it can be done. -/
structure Writes (fs : FileSystem) (path : Path) (content : ByteArray) (fs' : FileSystem)
    (place : Location) : Prop where
  resolve : fs.resolve path = .ok place
  notDirectory : fs.get? place ≠ some .directory
  endsInSlash : path.endsInSlash = false
  eq : fs' = fs.insert place (.file content)

/-- A file is written just if there is no directory in its place, and its path ends in a name. -/
theorem write_eq_ok_iff :
    fs.write path content = .ok fs' ↔
      endsInName path = true ∧ ∃ place, fs.Writes path content fs' place := by
  constructor
  · intro h
    unfold write at h
    cases hplace : fs.resolve path with
    | error cause => rw [hplace] at h; cases h
    | ok place =>
      rw [hplace] at h
      change (if (!endsInName path || path.endsInSlash) = true then _ else _) = _ at h
      split at h
      · cases h
      · next hpath =>
        simp only [Bool.or_eq_true, Bool.not_eq_true', not_or, Bool.not_eq_false,
          Bool.not_eq_true] at hpath
        split at h
        · cases h
        · next hentry =>
          exact ⟨hpath.1, place, hplace, hentry, hpath.2, (Except.ok.inj h).symm⟩
  · rintro ⟨hname, place, hw⟩
    -- the match on what is there takes this from the context
    have hentry := hw.notDirectory
    unfold write
    rw [hw.resolve]
    simp [bind, Except.bind, hname, hw.endsInSlash, hw.eq]

theorem exists_writes (h : fs.write path content = .ok fs') :
    ∃ place, fs.Writes path content fs' place :=
  (write_eq_ok_iff.mp h).2

/-- What a move does, when it can be done. -/
structure Renames (fs : FileSystem) (source target : Path) (fs' : FileSystem)
    (origin place : Location) (content : ByteArray) : Prop where
  resolve_source : fs.resolve source = .ok origin
  resolve_target : fs.resolve target = .ok place
  file : fs.get? origin = some (.file content)
  notDirectory : fs.get? place ≠ some .directory
  endsInSlash : target.endsInSlash = false
  eq : fs' = (fs.erase origin).insert place (.file content)

/-- A file is moved just if there is no directory in its new place, and both paths end in a name. -/
theorem rename_eq_ok_iff :
    fs.rename source target = .ok fs' ↔
      endsInName source = true ∧ endsInName target = true ∧ source.endsInSlash = false ∧
        ∃ origin place content, fs.Renames source target fs' origin place content := by
  constructor
  · intro h
    unfold rename at h
    cases horigin : fs.resolve source with
    | error cause => rw [horigin] at h; cases h
    | ok origin =>
      cases hplace : fs.resolve target with
      | error cause => rw [horigin, hplace] at h; cases h
      | ok place =>
        rw [horigin, hplace] at h
        change (if (!endsInName source || !endsInName target) = true then _ else _) = _ at h
        split at h
        · cases h
        · next hnames =>
          simp only [Bool.or_eq_true, Bool.not_eq_true', not_or, Bool.not_eq_false] at hnames
          split at h
          · cases h
          · cases h
          · next content hfile =>
            split at h
            · cases h
            · next hslash =>
              simp only [Bool.or_eq_true, not_or, Bool.not_eq_true] at hslash
              split at h
              · cases h
              · next hentry =>
                exact ⟨hnames.1, hnames.2, hslash.1, origin, place, content, horigin, hplace,
                  hfile, hentry, hslash.2, (Except.ok.inj h).symm⟩
  · rintro ⟨hsource, htarget, hslash, origin, place, content, hr⟩
    -- the match on what is there takes this from the context
    have hentry := hr.notDirectory
    unfold rename
    rw [hr.resolve_source, hr.resolve_target]
    simp [bind, Except.bind, hsource, htarget, hr.file, hslash, hr.endsInSlash, hr.eq]

theorem exists_renames (h : fs.rename source target = .ok fs') :
    ∃ origin place content, fs.Renames source target fs' origin place content :=
  (rename_eq_ok_iff.mp h).2.2.2

/-- What is not there cannot be moved. -/
theorem rename_of_get?_eq_none {origin place : Location} (hsource : endsInName source = true)
    (htarget : endsInName target = true) (horigin : fs.resolve source = .ok origin)
    (hplace : fs.resolve target = .ok place) (hnone : fs.get? origin = none) :
    fs.rename source target = .error .notFound := by
  unfold rename
  rw [horigin, hplace]
  simp [bind, Except.bind, hsource, htarget, hnone]

theorem ne_nil_of_get?_ne {place : Location} (h : fs.get? place ≠ some .directory) :
    place ≠ [] := by
  rintro rfl
  exact h (get?_nil fs)

theorem Writes.keepsDirectories {place : Location} (h : fs.Writes path content fs' place) :
    fs.KeepsDirectories fs' :=
  h.eq ▸ keepsDirectories_insert _ h.notDirectory

theorem Writes.get?_place {place : Location} (h : fs.Writes path content fs' place) :
    fs'.get? place = some (.file content) := by
  rw [h.eq, get?_insert fs (ne_nil_of_get?_ne h.notDirectory), if_pos rfl]

theorem Renames.origin_notDirectory {origin place : Location}
    (h : fs.Renames source target fs' origin place content) :
    fs.get? origin ≠ some .directory := by
  rw [h.file]
  simp

theorem Renames.keepsDirectories {origin place : Location}
    (h : fs.Renames source target fs' origin place content) : fs.KeepsDirectories fs' := by
  have hplace : (fs.erase origin).get? place ≠ some .directory := by
    rw [get?_erase fs (ne_nil_of_get?_ne h.origin_notDirectory)]
    split
    · simp
    · exact h.notDirectory
  rw [h.eq]
  exact (keepsDirectories_erase h.origin_notDirectory).trans (keepsDirectories_insert _ hplace)

/-- The moved file is found at its new path. -/
theorem Renames.read_eq {origin place : Location}
    (h : fs.Renames source target fs' origin place content) : fs'.read target = .ok content := by
  have hresolve := resolve_of_keepsDirectories h.keepsDirectories h.resolve_target
  have hget : fs'.get? place = some (.file content) := by
    rw [h.eq, get?_insert _ (ne_nil_of_get?_ne h.notDirectory), if_pos rfl]
  simp [read, lookup, hresolve, hget, h.endsInSlash, bind, Except.bind]

/-- **What is written to one path and moved to another is found there.** -/
theorem read_rename_write (hwrite : fs.write source content = .ok fs')
    (hrename : fs'.rename source target = .ok fs'') : fs''.read target = .ok content := by
  obtain ⟨place, hw⟩ := exists_writes hwrite
  obtain ⟨origin, target', moved, hr⟩ := exists_renames hrename
  -- the file that is moved is the one that was written
  have horigin : origin = place :=
    Except.ok.inj (hr.resolve_source.symm.trans
      (resolve_of_keepsDirectories hw.keepsDirectories hw.resolve))
  have hmoved : some (Entry.file moved) = some (.file content) :=
    hr.file.symm.trans (horigin ▸ hw.get?_place)
  obtain rfl : moved = content := by simpa using hmoved
  exact hr.read_eq

end OrderedEnv.FileSystem
