import OrderedEnv.Proofs.Limits.Document
import OrderedEnv.Proofs.Limits.File
import OrderedEnv.Proofs.Text.Utf8

/-!
# Limits that are loaded again

The limits that were saved are loaded from their file, by every later call, as long as the path
leads to what was written (`Limits.KeptAt`). To load them changes nothing, so it can be done any
number of times.
-/

namespace OrderedEnv.Limits

open FileSystem

variable {limits : Limits} {path : Path} {machine machine' : Machine}

/-! ## Loading -/

theorem yields_load {text : String} (hread : machine.files.read path = .ok text.toUTF8)
    (htext : ofJson? text = some limits) :
    Yields (load path : MachineStep LimitsError Limits) machine limits machine := by
  have hfound : Disk.textOf (machine.files.read path) = .ok text := by
    rw [hread]
    simp only [Disk.textOf, Except.bind, Text.fromUTF8?_toUTF8]
  refine yields_bind.mpr ⟨_, machine, yields_readText.mpr ⟨hfound.symm, rfl⟩, ?_⟩
  simp only [htext, yields_pure, and_self]

/-- Where something is, it is loaded. Where nothing is, the limits of a new configuration are saved,
and no other reason to fail is added. -/
theorem outcome_loadOrInit (path : Path) (machine : Machine) :
    MachineStep.outcome (loadOrInit path : MachineStep LimitsError Limits) machine =
      if (machine.files.lookup path).toBool then MachineStep.outcome (load path) machine
      else
        match MachineStep.outcome (save default path : MachineStep LimitsError Unit) machine with
        | (.ok _, after) => (.ok default, after)
        | (.error cause, after) => (.error cause, after) := by
  have hpresent : Yields (Disk.isPresent path : MachineStep LimitsError Bool) machine
      (machine.files.lookup path).toBool machine := yields_isPresent.mpr ⟨rfl, rfl⟩
  rw [loadOrInit, outcome_bind, hpresent]
  cases (machine.files.lookup path).toBool with
  | true => rfl
  | false =>
    refine (outcome_bind (save default path) fun _ => pure default).trans ?_
    cases MachineStep.outcome (save default path : MachineStep LimitsError Unit) machine with
    | mk result after => cases result <;> rfl

/-- The path leads to a file, and as long as it leads to this file, these limits are loaded from it
and nothing is changed by loading them. -/
structure KeptAt (limits : Limits) (path : Path) (fs : FileSystem) : Prop where
  file : ∃ content, fs.lookup path = .ok (.file content)
  load : ∀ machine : Machine, machine.files.lookup path = fs.lookup path →
    Yields (load path : MachineStep LimitsError Limits) machine limits machine
  loadOrInit : ∀ machine : Machine, machine.files.lookup path = fs.lookup path →
    Yields (loadOrInit path : MachineStep LimitsError Limits) machine limits machine

theorem keptAt_of_read {fs : FileSystem} (hread : fs.read path = .ok limits.toJson.toUTF8) :
    limits.KeptAt path fs := by
  have hfile := read_eq_ok_iff.mp hread
  have hload : ∀ machine : Machine, machine.files.lookup path = fs.lookup path →
      Yields (Limits.load path : MachineStep LimitsError Limits) machine limits machine :=
    fun machine hsame =>
      yields_load (read_eq_ok_iff.mpr (hsame.trans hfile)) (ofJson?_toJson limits)
  refine ⟨⟨_, hfile⟩, hload, fun machine hsame => ?_⟩
  have hthere : (machine.files.lookup path).toBool = true := by
    rw [hsame, hfile]
    rfl
  rw [Yields, outcome_loadOrInit, if_pos hthere]
  exact hload machine hsame

/-! ## Saving -/

theorem read_of_yields_save
    (h : Yields (save limits path : MachineStep LimitsError Unit) machine () machine') :
    machine'.files.read path = .ok limits.toJson.toUTF8 := by
  unfold save at h
  extract_lets write at h
  -- the write is the last step, whether directories are made in front of it or not
  have hwrite : ∀ between, Yields (write ()) between () machine' →
      machine'.files.read path = .ok limits.toJson.toUTF8 := by
    intro between h
    obtain ⟨result, after, hresult, hend⟩ := yields_bind.mp h
    rcases of_yields_change (fun files => files.write path limits.toJson.toUTF8) hresult with
      ⟨files, hfiles, rfl, rfl⟩ | ⟨cause, -, rfl, rfl⟩
    · obtain ⟨-, rfl⟩ := yields_pure.mp hend
      exact read_write hfiles
    · exact absurd hend yields_throw
  split at h
  · obtain ⟨result, between, -, hnext⟩ := yields_bind.mp h
    cases result with
    | error cause => exact absurd hnext yields_throw
    | ok _ => exact hwrite between hnext
  · exact hwrite machine h

/-! ## Saving and loading again -/

/-- Limits that could be initialised are kept. -/
theorem fails_or_keptAt_of_missing (hmissing : (machine.files.lookup path).toBool = false) :
    (∃ cause after,
      FailsWith (save default path : MachineStep LimitsError Unit) machine cause after ∧
      FailsWith (loadOrInit path : MachineStep LimitsError Limits) machine cause after) ∨
    ∃ after, Yields (loadOrInit path : MachineStep LimitsError Limits) machine default after ∧
      default.KeptAt path after.files := by
  have hinit := outcome_loadOrInit path machine
  rw [if_neg (Bool.eq_false_iff.mp hmissing)] at hinit
  cases hsave : MachineStep.outcome (save default path : MachineStep LimitsError Unit) machine with
  | mk result after =>
    rw [hsave] at hinit
    cases result with
    | error cause => exact .inl ⟨cause, after, hsave, hinit⟩
    | ok _ => exact .inr ⟨after, hinit, keptAt_of_read (read_of_yields_save hsave)⟩

/-- **Limits survive their file.** After they were saved, they are loaded as they were, so just the
limits that were disabled are disabled then. Where something is, `loadOrInit` does what `load` does,
and changes nothing. Where nothing is, it leaves the limits of a new configuration, which are loaded
from then on, unless they cannot be saved. -/
theorem load_returns_saved (limits : Limits) (path : Path) (machine : Machine) :
    (∀ after, Yields (save limits path : MachineStep LimitsError Unit) machine () after →
      limits.KeptAt path after.files ∧
      ∀ loaded reached, Yields (load path : MachineStep LimitsError Limits) after loaded reached →
        (loaded.valueBytes = none ↔ limits.valueBytes = none) ∧
        (loaded.listBytes = none ↔ limits.listBytes = none)) ∧
    ((machine.files.lookup path).toBool = true →
      MachineStep.outcome (loadOrInit path : MachineStep LimitsError Limits) machine =
        MachineStep.outcome (load path) machine ∧
      Leaves (loadOrInit path : MachineStep LimitsError Limits) machine (· = machine)) ∧
    ((machine.files.lookup path).toBool = false →
      (∃ cause after,
        FailsWith (save default path : MachineStep LimitsError Unit) machine cause after ∧
        FailsWith (loadOrInit path : MachineStep LimitsError Limits) machine cause after) ∨
      ∃ after, Yields (loadOrInit path : MachineStep LimitsError Limits) machine default after ∧
        default.KeptAt path after.files) := by
  refine ⟨fun after hsave => ?_, fun hthere => ?_, fails_or_keptAt_of_missing⟩
  · have hkept := keptAt_of_read (read_of_yields_save hsave)
    refine ⟨hkept, fun loaded reached hload => ?_⟩
    obtain ⟨hloaded, -⟩ := Prod.mk.inj (hload.symm.trans (hkept.load after rfl))
    obtain rfl := Except.ok.inj hloaded
    exact ⟨.rfl, .rfl⟩
  · have hsame := (outcome_loadOrInit path machine).trans (if_pos hthere)
    refine ⟨hsame, ?_⟩
    rw [Leaves, hsame]
    exact leaves_load path machine

/-- No limit for one value and the greatest one for all values are saved on a machine without files,
and the limits of a new configuration are initialised there. -/
theorem load_returns_saved_greatest :
    let path := Path.ofText "nested/configs.json"
    let limits : Limits := ⟨0, 18446744073709551615⟩
    let bare : Machine := ⟨⟨∅, []⟩, [], .nothing, fun _ => none, .empty, "", true⟩
    let saved := (MachineStep.outcome (save limits path : MachineStep LimitsError Unit) bare).2
    let started :=
      (MachineStep.outcome (loadOrInit path : MachineStep LimitsError Limits) bare).2
    Yields (save limits path : MachineStep LimitsError Unit) bare () saved ∧
      limits.KeptAt path saved.files ∧
      Leaves (loadOrInit path : MachineStep LimitsError Limits) saved (· = saved) ∧
      (bare.files.lookup path).toBool = false ∧
      Yields (loadOrInit path : MachineStep LimitsError Limits) bare default started ∧
      default.KeptAt path started.files := by
  intro path limits bare saved started
  have hsave : Yields (save limits path : MachineStep LimitsError Unit) bare () saved :=
    yields_of_toBool (by decide +kernel)
  have hmissing : (bare.files.lookup path).toBool = false := by decide +kernel
  have hends :
      (MachineStep.outcome (loadOrInit path : MachineStep LimitsError Limits) bare).1.toBool =
        true := by decide +kernel
  have hkept := ((load_returns_saved limits path bare).1 saved hsave).1
  obtain ⟨content, hfile⟩ := hkept.file
  have hthere : (saved.files.lookup path).toBool = true := by
    rw [hfile]
    rfl
  have hleaves := ((load_returns_saved limits path saved).2.1 hthere).2
  rcases (load_returns_saved limits path bare).2.2 hmissing with
    ⟨cause, after, -, hfails⟩ | ⟨after, h, hstarted⟩
  · rw [hfails] at hends
    cases hends
  · obtain rfl : started = after := congrArg Prod.snd h
    exact ⟨hsave, hkept, hleaves, hmissing, h, hstarted⟩

end OrderedEnv.Limits
