import OrderedEnv.Limits.File
import OrderedEnv.Proofs.FileSystem.Change
import OrderedEnv.Proofs.Machine.Ending

/-!
# What is changed for the limits

To load the limits changes nothing, unless there are none yet. Then directories are made along the
path, and the limits of a new configuration are written to its end.

Nothing that is there is lost by making directories. But it can be lost by writing: a path that led
nowhere leads somewhere when the directories on it are made, and by way of `..` this may be a file
that was there (`Limits.Overwrites`).
-/

namespace OrderedEnv

variable {ε : Type} {machine machine' : Machine} {path : Path}
  {F : FileSystem → FileSystem → Prop}

/-! ## Making directories -/

namespace Disk

variable [IsPreorder FileSystem F]

theorem leaves_ensureDirectory
    (h : ∀ fs fs', FileSystem.makeDirectory fs path = .ok fs' → F fs fs') (machine : Machine) :
    Leaves (ensureDirectory path : MachineStep ε (Except FileError Unit)) machine
      (machine.FilesOnly F) := by
  refine leaves_bind_of_trans (leaves_change fun files => h _ files) fun result between _ _ => ?_
  split
  · refine leaves_bind_of_trans (filesOnly_refl between) fun found again _ _ => ?_
    split <;> exact filesOnly_refl again
  · exact filesOnly_refl between

/-- To make all directories is to make some of those on the path. -/
theorem leaves_ensureDirectories (path : Path)
    (h : ∀ fs fs', ∀ other ∈ path.upward, FileSystem.makeDirectory fs other = .ok fs' → F fs fs')
    (machine : Machine) :
    Leaves (ensureDirectories path : MachineStep ε (Except FileError Unit)) machine
      (machine.FilesOnly F) := by
  induction hlength : path.bytes.length using Nat.strongRecOn generalizing path machine with
  | ind length ih =>
    have hself := leaves_ensureDirectory (ε := ε) fun fs fs' => h fs fs' path path.mem_upward_self
    rw [ensureDirectories]
    split
    · exact filesOnly_refl machine
    · next parent hparent =>
      refine leaves_bind_of_trans (hself machine) fun result between _ _ => ?_
      split
      · have hlt : parent.bytes.length < length := hlength ▸ Path.parent?_lt hparent
        refine leaves_bind_of_trans (ih _ hlt parent ?_ between rfl) fun made again _ _ => ?_
        · exact fun fs fs' other hother => h fs fs' other (Path.upward_subset hparent hother)
        · split
          · exact hself again
          · exact filesOnly_refl again
      · exact filesOnly_refl between

end Disk

/-! ## Saving and loading -/

namespace Limits

open FileSystem

/-- Directories are made along the path, and then the limits may be written to its end. -/
def Saves (limits : Limits) (path : Path) (fs fs' : FileSystem) : Prop :=
  ∃ made, fs.Extends path.upward made ∧
    (fs' = made ∨ made.write path limits.toJson.toUTF8 = .ok fs')

theorem Saves.changesOnly {limits : Limits} {fs fs' : FileSystem} (h : Saves limits path fs fs') :
    fs.ChangesOnly path.upward fs' := by
  obtain ⟨made, hmade, rfl | hwrite⟩ := h
  · exact hmade.toChangesOnly
  · have hself : {path} ⊆ path.upward := Set.singleton_subset_iff.mpr path.mem_upward_self
    exact IsTrans.trans _ _ _ hmade.toChangesOnly ((changesOnly_write hwrite).mono hself)

theorem leaves_save (limits : Limits) (path : Path) (machine : Machine) :
    Leaves (save limits path : MachineStep LimitsError Unit) machine
      (machine.FilesOnly (Saves limits path)) := by
  have hmake := Disk.leaves_ensureDirectories (ε := LimitsError) (F := Extends path.upward)
  unfold save
  extract_lets write
  have hwrite : ∀ between, machine.FilesOnly (Extends path.upward) between →
      Leaves (write ()) between (machine.FilesOnly (Saves limits path)) := by
    intro between hmade
    refine leaves_bind (fun _ h => absurd h fails_lift) fun result after hresult => ?_
    rcases of_yields_change (fun files => files.write path limits.toJson.toUTF8) hresult with
      ⟨files, hfiles, rfl, rfl⟩ | ⟨cause, -, rfl, rfl⟩
    · exact hmade.withFiles ⟨between.files, hmade.files, .inr hfiles⟩
    · exact ⟨⟨_, hmade.files, .inl rfl⟩, hmade.others⟩
  split
  · next parent hparent =>
    have hmade := hmake parent (fun fs fs' other hother =>
      extends_makeDirectory (Path.upward_subset hparent hother)) machine
    refine leaves_bind (fun _ h => ?_) fun result between hresult => ?_
    · have hfiles := hmade.of_fails h
      exact ⟨⟨_, hfiles.files, .inl rfl⟩, hfiles.others⟩
    · have hfiles := hmade.of_yields hresult
      split
      · exact ⟨⟨_, hfiles.files, .inl rfl⟩, hfiles.others⟩
      · exact hwrite between hfiles
  · exact hwrite machine (filesOnly_refl machine)

/-- To load limits changes nothing, whether they can be loaded or not. -/
theorem leaves_load (path : Path) (machine : Machine) :
    Leaves (load path : MachineStep LimitsError Limits) machine (· = machine) := by
  refine leaves_bind (fun _ h => absurd h fails_readText) fun found between hread => ?_
  obtain ⟨rfl, rfl⟩ := yields_readText.mp hread
  split
  · rfl
  · split <;> rfl

/-- Limits are saved only where there were none. -/
def Initialises (path : Path) (fs fs' : FileSystem) : Prop :=
  fs' = fs ∨ (fs.lookup path).toBool = false ∧ Saves default path fs fs'

theorem Initialises.changesOnly {fs fs' : FileSystem} (h : Initialises path fs fs') :
    fs.ChangesOnly path.upward fs' := by
  rcases h with rfl | ⟨-, hsaves⟩
  · exact Std.Refl.refl fs'
  · exact hsaves.changesOnly

theorem leaves_loadOrInit (path : Path) (machine : Machine) :
    Leaves (loadOrInit path : MachineStep LimitsError Limits) machine
      (machine.FilesOnly (Initialises path)) := by
  refine leaves_bind (fun _ h => absurd h fails_lift) fun present between hpresent => ?_
  obtain ⟨rfl, rfl⟩ := yields_isPresent.mp hpresent
  split
  · refine (leaves_load path between).imp ?_
    rintro _ rfl
    exact ⟨.inl rfl, rfl⟩
  · next hmissing =>
    have hsave := leaves_save default path between
    refine leaves_bind (fun _ h => ?_) fun _ after hafter => ?_
    · have hfiles := hsave.of_fails h
      exact ⟨.inr ⟨by simpa using hmissing, hfiles.files⟩, hfiles.others⟩
    · have hfiles := hsave.of_yields hafter
      exact ⟨.inr ⟨by simpa using hmissing, hfiles.files⟩, hfiles.others⟩

/-! ## Limits over a file -/

/-- The limits of a new configuration were written over what a path led to. The path of the limits
led nowhere before, not even to a place where nothing is. -/
structure Overwrites (limitsPath path : Path) (fs fs' : FileSystem) : Prop where
  unreachable : ∀ place, fs.resolve limitsPath ≠ .ok place
  resolve_eq : fs'.resolve limitsPath = fs'.resolve path
  read : fs'.read path = .ok default.toJson.toUTF8

theorem Overwrites.trans {limitsPath : Path} {before fs fs' after : FileSystem}
    (hbefore : before.KeepsDirectories fs) (h : Overwrites limitsPath path fs fs')
    (hafter : fs'.KeepsDirectories after) (hlookup : after.lookup path = fs'.lookup path) :
    Overwrites limitsPath path before after where
  unreachable := fun place hplace =>
    h.unreachable place (resolve_of_keepsDirectories hbefore hplace)
  resolve_eq := by
    obtain ⟨place, hpath, -, -⟩ := lookup_eq_file_iff.mp (read_eq_ok_iff.mp h.read)
    rw [resolve_of_keepsDirectories hafter hpath,
      resolve_of_keepsDirectories hafter (h.resolve_eq.trans hpath)]
  read := by
    rw [read_eq_ok_iff, hlookup]
    exact read_eq_ok_iff.mp h.read

/-- Had the path of the limits led to the file before, the limits would not have been missing. -/
theorem resolve_ne_ok_of_missing {limitsPath : Path} {fs made : FileSystem} {place : Location}
    {content : ByteArray} (hmade : fs.Extends limitsPath.upward made)
    (hmissing : (fs.lookup limitsPath).toBool = false)
    (hfile : fs.lookup path = .ok (.file content)) (hslash : limitsPath.endsInSlash = false)
    (hlimits : made.resolve limitsPath = .ok place) (hpath : made.resolve path = .ok place) :
    ∀ other, fs.resolve limitsPath ≠ .ok other := by
  intro other hother
  have hsame := resolve_of_keepsDirectories hmade.toKeepsDirectories hother
  obtain rfl : other = place := Except.ok.inj (hsame.symm.trans hlimits)
  obtain ⟨before, hbefore, hcontent, -⟩ := lookup_eq_file_iff.mp hfile
  have hstill := resolve_of_keepsDirectories hmade.toKeepsDirectories hbefore
  obtain rfl : before = other := Except.ok.inj (hstill.symm.trans hpath)
  rw [lookup_eq_file_iff.mpr ⟨before, hother, hcontent, hslash⟩] at hmissing
  cases hmissing

/-- **A file stays as it was when limits are loaded, unless it is overwritten by them.** -/
theorem Initialises.lookup_eq_or_overwrites {limitsPath : Path} {fs fs' : FileSystem}
    {content : ByteArray} (h : Initialises limitsPath fs fs')
    (hfile : fs.lookup path = .ok (.file content)) :
    fs'.lookup path = fs.lookup path ∨ Overwrites limitsPath path fs fs' := by
  rcases h with rfl | ⟨hmissing, made, hmade, rfl | hwrite⟩
  · exact .inl rfl
  · exact .inl ((hmade.lookup_file hfile).trans hfile.symm)
  · obtain ⟨place, hw⟩ := exists_writes hwrite
    have hthere := hmade.lookup_file hfile
    obtain ⟨filePlace, hpath, -, hslash⟩ := lookup_eq_file_iff.mp hthere
    have hpath' := resolve_of_keepsDirectories hw.keepsDirectories hpath
    have hlimits' := resolve_of_keepsDirectories hw.keepsDirectories hw.resolve
    by_cases hplace : place = filePlace
    · subst hplace
      refine .inr ⟨?_, hlimits'.trans hpath'.symm, ?_⟩
      · exact resolve_ne_ok_of_missing hmade hmissing hfile hw.endsInSlash hw.resolve hpath
      · exact read_eq_ok_iff.mpr (lookup_eq_file_iff.mpr ⟨place, hpath', hw.get?_place, hslash⟩)
    · have hkept : fs'.get? filePlace = made.get? filePlace := by
        rw [hw.eq, get?_insert made (ne_nil_of_get?_ne hw.notDirectory), if_neg hplace]
      have hlookup := lookup_eq_of_get?_eq hw.keepsDirectories hpath hkept
      exact .inl (hlookup.trans (hthere.trans hfile.symm))

end Limits

end OrderedEnv
