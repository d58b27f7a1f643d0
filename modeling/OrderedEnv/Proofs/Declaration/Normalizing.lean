import Mathlib.Data.List.Nodup
import OrderedEnv.Proofs.Declaration.OptionReading

/-!
# Which mappings are declarations

A mapping is read as a declaration in four steps: its keys have to be text, one of them has to name
a variable, the value of that one has to be a scalar, and the options have to be good. Here it is
said without steps which mappings can be read and what is read from them (`ofRaw_eq_ok_iff`), and
which fault is reported of the others, since a mapping may have several (`ofRaw_eq_error_iff`).

A mapping holds no key twice. So what is read is settled by which entries there are, and their order
does not matter, neither in the mapping nor in its options (`Reordered.ofRaw_eq_ok_iff`). Only the
choice of the fault that is reported depends on it.
-/

namespace OrderedEnv.Declaration

open Yaml

/-! ## What is in a mapping -/

/-- No key stands twice in the mapping, and none in its options. -/
structure HasDistinctKeys (raw : RawDeclaration) : Prop where
  keys : (raw.map Prod.fst).Nodup
  options : ∀ entries, (.string optionsKey, .mapping entries) ∈ raw →
    (entries.map Prod.fst).Nodup

def HasTextKey (entry : Value × Value) : Prop := ∃ key, entry.1 = .string key

/-- All keys are text, and one of them names a variable: it is not empty and not that of the
options. The variable has this value. -/
structure Names (raw : RawDeclaration) (key : String) (found : Value) : Prop where
  text : ∀ entry ∈ raw, HasTextKey entry
  mem : (.string key, found) ∈ raw
  ne_empty : key ≠ ""
  ne_optionsKey : key ≠ optionsKey
  only : ∀ (other : String) (value : Value), (.string other, value) ∈ raw →
    other = key ∨ other = "" ∨ other = optionsKey

/-- The value may stand as the options. -/
def AreOptions (options : Value) : Prop :=
  options = .null ∨
    ∃ entries, options = .mapping entries ∧ ∀ entry ∈ entries, OptionEntries.Accepts entry

theorem areOptions_mapping_iff {entries : Mapping} :
    AreOptions (.mapping entries) ↔ ∀ entry ∈ entries, OptionEntries.Accepts entry := by
  simp [AreOptions]

/-- The mapping can be read. -/
structure IsReadable (raw : RawDeclaration) : Prop where
  names : ∃ key found, Names raw key found ∧ found.IsScalar
  options : ∀ options, (.string optionsKey, options) ∈ raw → AreOptions options

/-- The options in the mapping give a field this value. -/
def Gives (raw : RawDeclaration) (field : Field) (value : Value) : Prop :=
  ∃ entries, (.string optionsKey, .mapping entries) ∈ raw ∧
    OptionEntries.Given entries field value

/-- What a declaration says in a field, none if it says nothing there. -/
def Field.get? (d : Declaration) : Field → Option OptionValue
  | .title => d.info.title.map .text
  | .description => d.info.description.map .text
  | .summary => d.info.summary.map .text
  | .category => d.info.category.map .text
  | .valueOptions => some (.texts d.info.valueOptions)
  | .isRequired => some (.flag d.info.isRequired)
  | .isExpand => some (.flag d.options.expand)
  | .isDontChangeValue => some (.flag d.info.isDontChangeValue)
  | .isTemplate => some (.flag d.info.isTemplate)
  | .isSensitive => some (.flag d.options.sensitive)
  | .skipIfEmpty => some (.flag d.options.skipIfEmpty)
  | .unset => some (.flag d.options.unset)
  | .extra => d.info.extra.map .mapping

/-- What is in the mapping is in the declaration, and what is not has its default. -/
structure IsReadFrom (d : Declaration) (raw : RawDeclaration) : Prop where
  names : ∃ found, Names raw d.key found ∧ found.scalarText? = some d.value
  given : ∀ field value, Gives raw field value →
    ∃ v, v.form = field.form ∧ value.Says v ∧ field.get? d = some v
  default : ∀ field, (∀ value, ¬Gives raw field value) → field.get? d = field.get? Field.plain

/-- What is reported of a mapping that is no declaration. The first that applies is reported: a key
that is no text, the number of variables, the value of the variable, the options as a whole, and the
first bad entry in them. -/
inductive FirstFault (raw : RawDeclaration) : DeclarationError → Prop where
  | nonStringKey {i : Nat} {entry : Value × Value} (h : IsFirstWithout HasTextKey raw i entry) :
    FirstFault raw (.nonStringKey entry.1.describe)
  | missingKey {keys : List String} (hkeys : raw.map Prod.fst = keys.map .string)
    (h : keys.filter isVariableKey = []) : FirstFault raw (.missingKey keys)
  | multipleKeys {keys : List String} (hkeys : raw.map Prod.fst = keys.map .string)
    (h : 2 ≤ (keys.filter isVariableKey).length) :
    FirstFault raw (.multipleKeys (keys.filter isVariableKey))
  | nonScalarValue {key : String} {found : Value} (hnames : Names raw key found)
    (h : ¬found.IsScalar) : FirstFault raw (.nonScalarValue key found.describe)
  | optionsNotMap {key : String} {found options : Value} (hnames : Names raw key found)
    (hfound : found.IsScalar) (hoptions : (.string optionsKey, options) ∈ raw)
    (hnull : options ≠ .null) (h : ∀ entries, options ≠ .mapping entries) :
    FirstFault raw (.optionsNotMap options.describe)
  | option {key : String} {found : Value} {entries : Mapping} {i : Nat} {entry : Value × Value}
    {fault : DeclarationError} (hnames : Names raw key found) (hfound : found.IsScalar)
    (hoptions : (.string optionsKey, .mapping entries) ∈ raw)
    (h : IsFirstWithout OptionEntries.Accepts entries i entry)
    (hfault : OptionEntries.Fault entry fault) : FirstFault raw fault

/-! ## The steps -/

variable {raw : RawDeclaration} {d : Declaration} {e : DeclarationError}

theorem ofRaw_eq_ok_iff_steps : ofRaw raw = .ok d ↔
    ∃ entries key found text written, textEntries raw = .ok entries ∧
      variableEntry entries = .ok (key, found) ∧ found.scalarText? = some text ∧
      optionEntries entries = .ok written ∧ d = ⟨key, text, written.options, written.info⟩ := by
  constructor
  · intro h
    simp only [ofRaw, bind, Except.bind] at h
    cases htext : textEntries raw with
    | error fault => simp [htext] at h
    | ok entries =>
      cases hvariable : variableEntry entries with
      | error fault => simp [htext, hvariable] at h
      | ok entry =>
        obtain ⟨key, found⟩ := entry
        cases hvalue : found.scalarText? with
        | none => simp [htext, hvariable, hvalue, throw, throwThe, MonadExceptOf.throw] at h
        | some text =>
          cases hoptions : optionEntries entries with
          | error fault => simp [htext, hvariable, hvalue, hoptions, pure, Except.pure] at h
          | ok written =>
            simp only [htext, hvariable, hvalue, hoptions, pure, Except.pure] at h
            exact ⟨entries, key, found, text, written, rfl, hvariable, hvalue, hoptions,
              (Except.ok.inj h).symm⟩
  · rintro ⟨entries, key, found, text, written, htext, hvariable, hvalue, hoptions, rfl⟩
    exact ofRaw_of_parts htext hvariable hvalue hoptions

theorem ofRaw_eq_error_iff_steps : ofRaw raw = .error e ↔
    textEntries raw = .error e ∨ ∃ entries, textEntries raw = .ok entries ∧
      (variableEntry entries = .error e ∨ ∃ key found, variableEntry entries = .ok (key, found) ∧
        ((found.scalarText? = none ∧ e = .nonScalarValue key found.describe) ∨
          ∃ text, found.scalarText? = some text ∧ optionEntries entries = .error e)) := by
  simp only [ofRaw, bind, Except.bind]
  cases textEntries raw with
  | error fault => simp
  | ok entries =>
    cases hvariable : variableEntry entries with
    | error fault => simp [hvariable]
    | ok entry =>
      obtain ⟨key, found⟩ := entry
      cases hvalue : found.scalarText? with
      | none => simp [hvariable, hvalue, throw, throwThe, MonadExceptOf.throw, eq_comm]
      | some text =>
        cases hoptions : optionEntries entries <;>
          simp [hvariable, hvalue, hoptions, pure, Except.pure]

/-! ## Keys -/

/-- The mapping with these entries, whose keys are text. -/
def ofTextEntries (entries : List (String × Value)) : RawDeclaration :=
  entries.map fun entry => (.string entry.1, entry.2)

variable {entries : List (String × Value)} {key : String} {found : Value}

theorem textEntries_cons_string (value : Value) :
    textEntries ((.string key, value) :: raw) = (textEntries raw).map ((key, value) :: ·) := rfl

theorem textEntries_cons_of_not_text {entry : Value × Value} (h : ¬HasTextKey entry) :
    textEntries (entry :: raw) = .error (.nonStringKey entry.1.describe) := by
  obtain ⟨key, value⟩ := entry
  cases key with
  | string key => exact absurd ⟨key, rfl⟩ h
  | _ => rfl

theorem textEntries_eq_ok_iff : textEntries raw = .ok entries ↔ raw = ofTextEntries entries := by
  unfold ofTextEntries
  induction raw generalizing entries with
  | nil =>
    cases entries with
    | nil => simp [textEntries]
    | cons entry entries => simp [textEntries]
  | cons entry rest ih =>
    by_cases h : HasTextKey entry
    · obtain ⟨key, value⟩ := entry
      obtain ⟨key, rfl⟩ : ∃ name, key = .string name := h
      rw [textEntries_cons_string, map_eq_ok_iff]
      simp only [ih]
      constructor
      · rintro ⟨entries, rfl, rfl⟩
        rfl
      · intro heq
        cases entries with
        | nil => simp at heq
        | cons other entries =>
          obtain ⟨hother, rfl⟩ := List.cons.inj heq
          obtain ⟨hkey, rfl⟩ := Prod.mk.inj hother
          obtain rfl := Value.string.inj hkey
          exact ⟨entries, rfl, rfl⟩
    · rw [textEntries_cons_of_not_text h]
      refine iff_of_false (by simp) fun heq => h ?_
      cases entries with
      | nil => simp at heq
      | cons other entries =>
        obtain ⟨rfl, -⟩ := List.cons.inj heq
        exact ⟨_, rfl⟩

theorem textEntries_eq_error_iff : textEntries raw = .error e ↔
    ∃ i entry, IsFirstWithout HasTextKey raw i entry ∧ e = .nonStringKey entry.1.describe := by
  induction raw with
  | nil => exact iff_of_false (fun h => nomatch h) IsFirstWithout.not_exists_nil
  | cons entry rest ih =>
    rw [IsFirstWithout.exists_cons_iff]
    by_cases h : HasTextKey entry
    · obtain ⟨key, value⟩ := entry
      obtain ⟨key, rfl⟩ : ∃ name, key = .string name := id h
      rw [textEntries_cons_string, map_eq_error_iff, ih]
      exact ⟨fun hrest => .inr ⟨h, hrest⟩, fun hor => (hor.resolve_left fun hnot => hnot.1 h).2⟩
    · rw [textEntries_cons_of_not_text h]
      simp [h, eq_comm]

theorem mem_ofTextEntries_iff {value : Value} :
    (.string key, value) ∈ ofTextEntries entries ↔ (key, value) ∈ entries := by
  simp [ofTextEntries, Prod.ext_iff]

theorem map_fst_ofTextEntries :
    (ofTextEntries entries).map Prod.fst = (entries.map Prod.fst).map .string := by
  simp [ofTextEntries, Function.comp_def]

theorem hasTextKey_ofTextEntries : ∀ entry ∈ ofTextEntries entries, HasTextKey entry := by
  intro entry hmem
  obtain ⟨⟨key, value⟩, -, rfl⟩ := List.mem_map.mp hmem
  exact ⟨key, rfl⟩

/-- A mapping whose keys are all text. -/
theorem exists_ofTextEntries (h : ∀ entry ∈ raw, HasTextKey entry) :
    ∃ entries, raw = ofTextEntries entries := by
  cases htext : textEntries raw with
  | ok entries => exact ⟨entries, textEntries_eq_ok_iff.mp htext⟩
  | error fault =>
    obtain ⟨i, entry, hfirst, -⟩ := textEntries_eq_error_iff.mp htext
    exact absurd (h entry hfirst.mem) hfirst.not

theorem nodup_of_hasDistinctKeys (h : HasDistinctKeys (ofTextEntries entries)) :
    (entries.map Prod.fst).Nodup := by
  have hkeys := h.keys
  rw [map_fst_ofTextEntries] at hkeys
  exact List.Nodup.of_map _ hkeys

/-! ## The variable -/

theorem variableEntry_eq_ok_iff (hkeys : (entries.map Prod.fst).Nodup) :
    variableEntry entries = .ok (key, found) ↔ Names (ofTextEntries entries) key found := by
  have hok : variableEntry entries = .ok (key, found) ↔
      entries.filter (fun entry => isVariableKey entry.1) = [(key, found)] := by
    unfold variableEntry
    split
    · next h => simp [h]
    · next entry h => simp [h]
    · next hsingle => exact iff_of_false (by simp) (hsingle _)
  rw [hok]
  constructor
  · intro h
    have hmem : (key, found) ∈ entries.filter fun entry => isVariableKey entry.1 := by simp [h]
    obtain ⟨hmem, hvariable⟩ := List.mem_filter.mp hmem
    obtain ⟨hempty, hopts⟩ := (isVariableKey_iff key).mp hvariable
    refine ⟨hasTextKey_ofTextEntries, mem_ofTextEntries_iff.mpr hmem, hempty, hopts, ?_⟩
    intro other value hother
    by_cases hvar : isVariableKey other = true
    · have hmem : (other, value) ∈ entries.filter fun entry => isVariableKey entry.1 :=
        List.mem_filter.mpr ⟨mem_ofTextEntries_iff.mp hother, hvar⟩
      rw [h, List.mem_singleton] at hmem
      exact .inl (congrArg Prod.fst hmem)
    · rw [isVariableKey_iff, not_and_or, not_not, not_not] at hvar
      exact .inr hvar
  · rintro ⟨-, hmem, hempty, hopts, honly⟩
    have hvariable : isVariableKey key = true := (isVariableKey_iff key).mpr ⟨hempty, hopts⟩
    have hfirst : (key, found) ∈ entries.filter fun entry => isVariableKey entry.1 :=
      List.mem_filter.mpr ⟨mem_ofTextEntries_iff.mp hmem, hvariable⟩
    have hsame : ∀ entry ∈ entries.filter fun entry => isVariableKey entry.1, entry.1 = key := by
      intro entry hentry
      obtain ⟨hentry, hvar⟩ := List.mem_filter.mp hentry
      obtain ⟨hne, hno⟩ := (isVariableKey_iff entry.1).mp hvar
      rcases honly entry.1 entry.2 (mem_ofTextEntries_iff.mpr hentry) with h | h | h
      · exact h
      · exact absurd h hne
      · exact absurd h hno
    have hnodup : ((entries.filter fun entry => isVariableKey entry.1).map Prod.fst).Nodup :=
      hkeys.sublist (List.filter_sublist.map Prod.fst)
    generalize entries.filter (fun entry => isVariableKey entry.1) = candidates
      at hfirst hsame hnodup ⊢
    -- two candidates would both have the key, but no key stands twice
    match candidates with
    | [] => simp at hfirst
    | [entry] => rw [List.mem_singleton.mp hfirst]
    | first :: second :: rest =>
      have hfst := hsame first (by simp)
      have hsnd := hsame second (by simp)
      simp [hfst, hsnd] at hnodup

theorem filter_map_fst : (entries.map Prod.fst).filter isVariableKey =
    (entries.filter fun entry => isVariableKey entry.1).map Prod.fst := by
  rw [List.filter_map]
  rfl

theorem variableEntry_eq_error_iff : variableEntry entries = .error e ↔
    ((entries.map Prod.fst).filter isVariableKey = [] ∧ e = .missingKey (entries.map Prod.fst)) ∨
      (2 ≤ ((entries.map Prod.fst).filter isVariableKey).length ∧
        e = .multipleKeys ((entries.map Prod.fst).filter isVariableKey)) := by
  rw [filter_map_fst]
  unfold variableEntry
  generalize entries.filter (fun entry => isVariableKey entry.1) = candidates
  match candidates with
  | [] =>
    constructor
    · rintro ⟨⟩
      exact .inl ⟨rfl, rfl⟩
    · rintro (⟨-, rfl⟩ | ⟨hlength, -⟩)
      · rfl
      · exact absurd hlength (by simp)
  | [entry] => simp
  | first :: second :: rest =>
    constructor
    · rintro ⟨⟩
      exact .inr ⟨by simp, rfl⟩
    · rintro (⟨hnil, -⟩ | ⟨-, rfl⟩)
      · simp at hnil
      · rfl

/-! ## The options -/

theorem lookup_eq_some_iff_mem (hkeys : (entries.map Prod.fst).Nodup) {value : Value} :
    entries.lookup key = some value ↔ (key, value) ∈ entries := by
  induction entries with
  | nil => simp
  | cons entry rest ih =>
    obtain ⟨name, other⟩ := entry
    obtain ⟨hnotin, hkeys⟩ := List.nodup_cons.mp hkeys
    rw [List.lookup_cons, List.mem_cons]
    by_cases hname : key = name
    · subst hname
      have hrest : (key, value) ∉ rest := fun h => hnotin (List.mem_map.mpr ⟨_, h, rfl⟩)
      simp [hrest, eq_comm]
    · rw [beq_false_of_ne hname, ih hkeys]
      simp [hname]

/-- What the options are read from: the value of their key, or nothing. -/
theorem optionEntries_cases (hkeys : (entries.map Prod.fst).Nodup) :
    ((∀ options, (.string optionsKey, options) ∉ ofTextEntries entries) ∧
      optionEntries entries = .ok {}) ∨
    ∃ options, (.string optionsKey, options) ∈ ofTextEntries entries ∧
      (∀ other, (.string optionsKey, other) ∈ ofTextEntries entries → other = options) ∧
      ((options = .null ∧ optionEntries entries = .ok {}) ∨
        (∃ written, options = .mapping written ∧
          optionEntries entries = OptionEntries.ofMapping written) ∨
        (options ≠ .null ∧ (∀ written, options ≠ .mapping written) ∧
          optionEntries entries = .error (.optionsNotMap options.describe))) := by
  simp only [mem_ofTextEntries_iff, ← lookup_eq_some_iff_mem hkeys, optionEntries]
  cases hlookup : entries.lookup optionsKey with
  | none => simp
  | some options =>
    refine .inr ⟨options, rfl, fun other h => (Option.some.inj h).symm, ?_⟩
    cases options with
    | null => exact .inl ⟨rfl, rfl⟩
    | mapping written => exact .inr (.inl ⟨written, rfl, rfl⟩)
    | _ => exact .inr (.inr ⟨by simp, by simp, rfl⟩)

theorem exists_optionEntries_eq_ok_iff (hkeys : (entries.map Prod.fst).Nodup) :
    (∃ written, optionEntries entries = .ok written) ↔
      ∀ options, (.string optionsKey, options) ∈ ofTextEntries entries → AreOptions options := by
  unfold AreOptions
  rcases optionEntries_cases hkeys with ⟨hnone, hok⟩ | ⟨options, hmem, hunique, hcases⟩
  · rw [hok]
    exact iff_of_true ⟨_, rfl⟩ fun options hmem => absurd hmem (hnone options)
  · have hforall : (∀ other, (.string optionsKey, other) ∈ ofTextEntries entries →
        AreOptions other) ↔ AreOptions options :=
      ⟨fun h => h options hmem, fun h other hother => hunique other hother ▸ h⟩
    refine Iff.trans ?_ hforall.symm
    rcases hcases with ⟨rfl, hok⟩ | ⟨written, rfl, hok⟩ | ⟨hnull, hmap, herror⟩
    · rw [hok]
      exact iff_of_true ⟨_, rfl⟩ (.inl rfl)
    · rw [hok, OptionEntries.exists_ofMapping_eq_ok_iff]
      exact areOptions_mapping_iff.symm
    · rw [herror]
      refine iff_of_false (by simp) ?_
      rintro (hfalse | ⟨written, hfalse, -⟩)
      · exact hnull hfalse
      · exact hmap written hfalse

theorem optionEntries_eq_error_iff (hkeys : (entries.map Prod.fst).Nodup) :
    optionEntries entries = .error e ↔
      (∃ options, (.string optionsKey, options) ∈ ofTextEntries entries ∧ options ≠ .null ∧
        (∀ written, options ≠ .mapping written) ∧ e = .optionsNotMap options.describe) ∨
      ∃ written, (.string optionsKey, .mapping written) ∈ ofTextEntries entries ∧
        ∃ i entry, IsFirstWithout OptionEntries.Accepts written i entry ∧
          OptionEntries.Fault entry e := by
  simp only [← OptionEntries.ofMapping_eq_error_iff]
  rcases optionEntries_cases hkeys with ⟨hnone, hok⟩ | ⟨options, hmem, hunique, hcases⟩
  · rw [hok]
    refine iff_of_false (by simp) ?_
    rintro (⟨options, hmem, -⟩ | ⟨written, hmem, -⟩)
    · exact hnone _ hmem
    · exact hnone _ hmem
  · rcases hcases with ⟨rfl, hok⟩ | ⟨written, rfl, hok⟩ | ⟨hnull, hmap, herror⟩
    · rw [hok]
      refine iff_of_false (by simp) ?_
      rintro (⟨options, hmem, hnull, -⟩ | ⟨written, hmem, -⟩)
      · exact hnull (hunique _ hmem)
      · exact absurd (hunique _ hmem) (by simp)
    · rw [hok]
      constructor
      · intro h
        exact .inr ⟨written, hmem, h⟩
      · rintro (⟨options, hother, -, hmap, -⟩ | ⟨other, hother, h⟩)
        · exact absurd (hunique _ hother) (hmap written)
        · obtain rfl := Value.mapping.inj (hunique _ hother)
          exact h
    · rw [herror]
      constructor
      · rintro ⟨⟩
        exact .inl ⟨options, hmem, hnull, hmap, rfl⟩
      · rintro (⟨other, hother, -, -, rfl⟩ | ⟨written, hother, -⟩)
        · rw [hunique _ hother]
        · exact absurd (hunique _ hother).symm (hmap written)

/-- What stands in a field of the options: what the mapping gives it, or nothing. -/
theorem get?_of_optionEntries (h : HasDistinctKeys (ofTextEntries entries))
    {written : OptionEntries} (hok : optionEntries entries = .ok written) (field : Field) :
    (∀ value, Gives (ofTextEntries entries) field value →
      ∃ v, v.form = field.form ∧ value.Says v ∧ written.get? field = some v) ∧
    ((∀ value, ¬Gives (ofTextEntries entries) field value) → written.get? field = none) := by
  have hempty : OptionEntries.get? {} field = none := by cases field <;> rfl
  rcases optionEntries_cases (nodup_of_hasDistinctKeys h) with
    ⟨hnone, hdefault⟩ | ⟨options, hmem, hunique, hcases⟩
  · obtain rfl := Except.ok.inj (hok.symm.trans hdefault)
    refine ⟨?_, fun _ => hempty⟩
    rintro value ⟨options, hmem, -⟩
    exact absurd hmem (hnone _)
  · rcases hcases with ⟨rfl, hdefault⟩ | ⟨mapping, rfl, hread⟩ | ⟨-, -, herror⟩
    · obtain rfl := Except.ok.inj (hok.symm.trans hdefault)
      refine ⟨?_, fun _ => hempty⟩
      rintro value ⟨mapping, hother, -⟩
      exact absurd (hunique _ hother) (by simp)
    · rw [hread] at hok
      obtain ⟨hgiven, hleft⟩ := OptionEntries.get?_of_foldlM hok (h.options mapping hmem) field
      constructor
      · rintro value ⟨other, hother, hvalue⟩
        obtain rfl := Value.mapping.inj (hunique _ hother)
        exact hgiven value hvalue
      · intro hnot
        rw [hleft fun value hvalue => hnot value ⟨mapping, hmem, hvalue⟩]
        exact hempty
    · rw [herror] at hok
      cases hok

/-! ## Declarations field by field -/

/-- A field that is left out has its default. -/
theorem Field.get?_of_written (key text : String) (written : OptionEntries) (field : Field) :
    field.get? ⟨key, text, written.options, written.info⟩ =
      (written.get? field).or (field.get? plain) := by
  cases field <;> simp only [get?, OptionEntries.get?, OptionEntries.options, OptionEntries.info]
  case valueOptions => cases written.valueOptions <;> rfl
  case isRequired => cases written.isRequired <;> rfl
  case isExpand => cases written.isExpand <;> rfl
  case isDontChangeValue => cases written.isDontChangeValue <;> rfl
  case isTemplate => cases written.isTemplate <;> rfl
  case isSensitive => cases written.isSensitive <;> rfl
  case skipIfEmpty => cases written.skipIfEmpty <;> rfl
  case unset => cases written.unset <;> rfl
  all_goals exact (Option.or_none).symm

/-- A declaration is its key, its value and its fields. -/
theorem eq_of_get?_eq {d' : Declaration} (hkey : d.key = d'.key) (hvalue : d.value = d'.value)
    (h : ∀ field : Field, field.get? d = field.get? d') : d = d' := by
  have text {a b : Option String} (h : a.map OptionValue.text = b.map .text) : a = b :=
    Option.map_injective (fun _ _ => OptionValue.text.inj) h
  have flag {a b : Bool} (h : some (OptionValue.flag a) = some (.flag b)) : a = b :=
    OptionValue.flag.inj (Option.some.inj h)
  obtain ⟨key, value, ⟨expand, skipIfEmpty, unset, sensitive⟩, info⟩ := d
  obtain ⟨key', value', ⟨expand', skipIfEmpty', unset', sensitive'⟩, info'⟩ := d'
  obtain rfl : key = key' := hkey
  obtain rfl : value = value' := hvalue
  obtain rfl : expand = expand' := flag (h .isExpand)
  obtain rfl : skipIfEmpty = skipIfEmpty' := flag (h .skipIfEmpty)
  obtain rfl : unset = unset' := flag (h .unset)
  obtain rfl : sensitive = sensitive' := flag (h .isSensitive)
  congr 1
  have hextra : info.extra = info'.extra :=
    Option.map_injective (fun _ _ => OptionValue.mapping.inj) (h .extra)
  have htexts : info.valueOptions = info'.valueOptions :=
    OptionValue.texts.inj (Option.some.inj (h .valueOptions))
  rw [Description.mk.injEq]
  exact ⟨text (h .title), text (h .description), text (h .summary), text (h .category), htexts,
    flag (h .isRequired), flag (h .isDontChangeValue), flag (h .isTemplate), hextra⟩

/-! ## What is read -/

theorem says_unique {value : Value} {v v' : OptionValue} {field : Field} (hv : v.form = field.form)
    (hv' : v'.form = field.form) (h : value.Says v) (h' : value.Says v') : v = v' := by
  have hread : field.form.read field.name value = .ok v :=
    (OptionForm.read_eq_ok_iff field.form_ne).mpr ⟨hv, h⟩
  have hread' : field.form.read field.name value = .ok v' :=
    (OptionForm.read_eq_ok_iff field.form_ne).mpr ⟨hv', h'⟩
  exact Except.ok.inj (hread.symm.trans hread')

theorem Names.unique {key' : String} {found' : Value} (hkeys : (raw.map Prod.fst).Nodup)
    (h : Names raw key found) (h' : Names raw key' found') : key = key' ∧ found = found' := by
  obtain ⟨entries, rfl⟩ := exists_ofTextEntries h.text
  rw [map_fst_ofTextEntries] at hkeys
  have hnodup := List.Nodup.of_map _ hkeys
  have hsame := ((variableEntry_eq_ok_iff hnodup).mpr h).symm.trans
    ((variableEntry_eq_ok_iff hnodup).mpr h')
  exact Prod.mk.inj (Except.ok.inj hsame)

/-- **There is at most one declaration that is read from a mapping.** -/
theorem IsReadFrom.unique {d' : Declaration} (hkeys : (raw.map Prod.fst).Nodup)
    (h : d.IsReadFrom raw) (h' : d'.IsReadFrom raw) : d = d' := by
  obtain ⟨found, hnames, hvalue⟩ := h.names
  obtain ⟨found', hnames', hvalue'⟩ := h'.names
  obtain ⟨hkey, rfl⟩ := hnames.unique hkeys hnames'
  refine eq_of_get?_eq hkey (Option.some.inj (hvalue.symm.trans hvalue')) fun field => ?_
  -- either both declarations say what is given, or both have the default
  by_cases hgives : ∃ value, Gives raw field value
  · obtain ⟨value, hgives⟩ := hgives
    obtain ⟨v, hv, hsays, hget⟩ := h.given field value hgives
    obtain ⟨v', hv', hsays', hget'⟩ := h'.given field value hgives
    rw [hget, hget', says_unique hv hv' hsays hsays']
  · have hnot : ∀ value, ¬Gives raw field value := fun value hvalue => hgives ⟨value, hvalue⟩
    rw [h.default field hnot, h'.default field hnot]

theorem isReadFrom_of_ofRaw (h : HasDistinctKeys raw) (hread : ofRaw raw = .ok d) :
    d.IsReadFrom raw := by
  obtain ⟨entries, key, found, text, written, htext, hvariable, hvalue, hoptions, rfl⟩ :=
    ofRaw_eq_ok_iff_steps.mp hread
  obtain rfl := textEntries_eq_ok_iff.mp htext
  refine ⟨⟨found, (variableEntry_eq_ok_iff (nodup_of_hasDistinctKeys h)).mp hvariable, hvalue⟩,
    ?_, ?_⟩
  · intro field value hgives
    obtain ⟨v, hv, hsays, hget⟩ := (get?_of_optionEntries h hoptions field).1 value hgives
    exact ⟨v, hv, hsays, by rw [Field.get?_of_written, hget, Option.some_or]⟩
  · intro field hnot
    have hget := (get?_of_optionEntries h hoptions field).2 hnot
    rw [Field.get?_of_written, hget, Option.none_or]

theorem exists_ofRaw_eq_ok_iff (h : HasDistinctKeys raw) :
    (∃ d, ofRaw raw = .ok d) ↔ IsReadable raw := by
  constructor
  · rintro ⟨d, hread⟩
    obtain ⟨entries, key, found, text, written, htext, hvariable, hvalue, hoptions, -⟩ :=
      ofRaw_eq_ok_iff_steps.mp hread
    obtain rfl := textEntries_eq_ok_iff.mp htext
    have hkeys := nodup_of_hasDistinctKeys h
    refine ⟨⟨key, found, (variableEntry_eq_ok_iff hkeys).mp hvariable, ?_⟩, ?_⟩
    · exact found.exists_scalarText?_iff.mp ⟨text, hvalue⟩
    · exact (exists_optionEntries_eq_ok_iff hkeys).mp ⟨written, hoptions⟩
  · rintro ⟨⟨key, found, hnames, hscalar⟩, hoptions⟩
    obtain ⟨entries, rfl⟩ := exists_ofTextEntries hnames.text
    have hkeys := nodup_of_hasDistinctKeys h
    obtain ⟨text, hvalue⟩ := found.exists_scalarText?_iff.mpr hscalar
    obtain ⟨written, hwritten⟩ := (exists_optionEntries_eq_ok_iff hkeys).mpr hoptions
    exact ⟨_, ofRaw_of_parts (textEntries_eq_ok_iff.mpr rfl)
      ((variableEntry_eq_ok_iff hkeys).mpr hnames) hvalue hwritten⟩

/-- **A declaration is read from the mapping if the mapping is readable and has it in it.** -/
theorem ofRaw_eq_ok_iff (h : HasDistinctKeys raw) :
    ofRaw raw = .ok d ↔ IsReadable raw ∧ d.IsReadFrom raw := by
  constructor
  · intro hread
    exact ⟨(exists_ofRaw_eq_ok_iff h).mp ⟨d, hread⟩, isReadFrom_of_ofRaw h hread⟩
  · rintro ⟨hreadable, hfrom⟩
    obtain ⟨d', hread⟩ := (exists_ofRaw_eq_ok_iff h).mpr hreadable
    rw [hread, hfrom.unique h.keys (isReadFrom_of_ofRaw h hread)]

/-! ## What is reported -/

/-- The keys of a mapping whose keys are all text. -/
theorem eq_map_fst_of_map_string {keys : List String}
    (h : (ofTextEntries entries).map Prod.fst = keys.map .string) :
    keys = entries.map Prod.fst := by
  rw [map_fst_ofTextEntries] at h
  exact (List.map_injective_iff.mpr (fun _ _ => Value.string.inj) h).symm

theorem exists_eq_ofTextEntries_of_map_fst {keys : List String}
    (h : raw.map Prod.fst = keys.map .string) : ∃ entries, raw = ofTextEntries entries := by
  refine exists_ofTextEntries fun entry hmem => ?_
  have hkey : entry.1 ∈ raw.map Prod.fst := List.mem_map.mpr ⟨entry, hmem, rfl⟩
  rw [h] at hkey
  obtain ⟨key, -, hkey⟩ := List.mem_map.mp hkey
  exact ⟨key, hkey.symm⟩

/-- Once the variable is found, its value comes first and the options last. -/
theorem ofRaw_eq_error_iff_of_names (h : HasDistinctKeys raw) (hnames : Names raw key found) :
    ofRaw raw = .error e ↔ (¬found.IsScalar ∧ e = .nonScalarValue key found.describe) ∨
      (found.IsScalar ∧
        ((∃ options, (.string optionsKey, options) ∈ raw ∧ options ≠ .null ∧
          (∀ written, options ≠ .mapping written) ∧ e = .optionsNotMap options.describe) ∨
        ∃ written, (.string optionsKey, .mapping written) ∈ raw ∧
          ∃ i entry, IsFirstWithout OptionEntries.Accepts written i entry ∧
            OptionEntries.Fault entry e)) := by
  obtain ⟨entries, rfl⟩ := exists_ofTextEntries hnames.text
  have hkeys := nodup_of_hasDistinctKeys h
  have htext : textEntries (ofTextEntries entries) = .ok entries := textEntries_eq_ok_iff.mpr rfl
  have hvariable := (variableEntry_eq_ok_iff hkeys).mpr hnames
  rw [← optionEntries_eq_error_iff hkeys, ← found.exists_scalarText?_iff, ofRaw_eq_error_iff_steps,
    htext]
  simp only [reduceCtorEq, false_or, Except.ok.injEq, exists_eq_left', hvariable, Prod.mk.injEq]
  cases hvalue : found.scalarText? <;> simp [hvalue]

/-- **The fault that is reported is the first one.** -/
theorem ofRaw_eq_error_iff (h : HasDistinctKeys raw) : ofRaw raw = .error e ↔ FirstFault raw e := by
  constructor
  · intro herror
    rcases ofRaw_eq_error_iff_steps.mp herror with htext | ⟨entries, htext, hrest⟩
    · obtain ⟨i, entry, hfirst, rfl⟩ := textEntries_eq_error_iff.mp htext
      exact .nonStringKey hfirst
    · obtain rfl := textEntries_eq_ok_iff.mp htext
      rcases hrest with hvariable | ⟨key, found, hvariable, -⟩
      · rcases variableEntry_eq_error_iff.mp hvariable with ⟨hnone, rfl⟩ | ⟨hmany, rfl⟩
        · exact .missingKey map_fst_ofTextEntries hnone
        · exact .multipleKeys map_fst_ofTextEntries hmany
      · have hnames := (variableEntry_eq_ok_iff (nodup_of_hasDistinctKeys h)).mp hvariable
        rcases (ofRaw_eq_error_iff_of_names h hnames).mp herror with
          ⟨hscalar, rfl⟩ | ⟨hscalar, ⟨options, hmem, hnull, hmap, rfl⟩ | ⟨written, hmem, i, entry,
            hfirst, hfault⟩⟩
        · exact .nonScalarValue hnames hscalar
        · exact .optionsNotMap hnames hscalar hmem hnull hmap
        · exact .option hnames hscalar hmem hfirst hfault
  · intro hfault
    cases hfault with
    | nonStringKey hfirst =>
      exact ofRaw_eq_error_iff_steps.mpr (.inl (textEntries_eq_error_iff.mpr ⟨_, _, hfirst, rfl⟩))
    | missingKey hkeys hnone =>
      obtain ⟨entries, rfl⟩ := exists_eq_ofTextEntries_of_map_fst hkeys
      obtain rfl := eq_map_fst_of_map_string hkeys
      exact ofRaw_eq_error_iff_steps.mpr (.inr ⟨entries, textEntries_eq_ok_iff.mpr rfl,
        .inl (variableEntry_eq_error_iff.mpr (.inl ⟨hnone, rfl⟩))⟩)
    | multipleKeys hkeys hmany =>
      obtain ⟨entries, rfl⟩ := exists_eq_ofTextEntries_of_map_fst hkeys
      obtain rfl := eq_map_fst_of_map_string hkeys
      exact ofRaw_eq_error_iff_steps.mpr (.inr ⟨entries, textEntries_eq_ok_iff.mpr rfl,
        .inl (variableEntry_eq_error_iff.mpr (.inr ⟨hmany, rfl⟩))⟩)
    | nonScalarValue hnames hscalar =>
      exact (ofRaw_eq_error_iff_of_names h hnames).mpr (.inl ⟨hscalar, rfl⟩)
    | optionsNotMap hnames hscalar hmem hnull hmap =>
      exact (ofRaw_eq_error_iff_of_names h hnames).mpr
        (.inr ⟨hscalar, .inl ⟨_, hmem, hnull, hmap, rfl⟩⟩)
    | option hnames hscalar hmem hfirst hfault =>
      exact (ofRaw_eq_error_iff_of_names h hnames).mpr
        (.inr ⟨hscalar, .inr ⟨_, hmem, _, _, hfirst, hfault⟩⟩)

/-! ## What reading looks at -/

/-- The mappings differ in nothing that reading looks at. -/
structure SameContent (raw raw' : RawDeclaration) : Prop where
  text : (∀ entry ∈ raw, HasTextKey entry) ↔ ∀ entry ∈ raw', HasTextKey entry
  named {key : String} {value : Value} (hempty : key ≠ "") (hkey : key ≠ optionsKey) :
    (.string key, value) ∈ raw ↔ (.string key, value) ∈ raw'
  options : (∀ options, (.string optionsKey, options) ∈ raw → AreOptions options) ↔
    ∀ options, (.string optionsKey, options) ∈ raw' → AreOptions options
  gives (field : Field) (value : Value) : Gives raw field value ↔ Gives raw' field value

namespace SameContent

variable {raw' raw'' : RawDeclaration}

theorem symm (h : SameContent raw raw') : SameContent raw' raw where
  text := h.text.symm
  named hempty hkey := (h.named hempty hkey).symm
  options := h.options.symm
  gives field value := (h.gives field value).symm

theorem trans (h : SameContent raw raw') (h' : SameContent raw' raw'') :
    SameContent raw raw'' where
  text := h.text.trans h'.text
  named hempty hkey := (h.named hempty hkey).trans (h'.named hempty hkey)
  options := h.options.trans h'.options
  gives field value := (h.gives field value).trans (h'.gives field value)

/-- The mappings have the same entries, but for some whose key is empty. -/
theorem of_mem_iff
    (htext : (∀ entry ∈ raw, HasTextKey entry) ↔ ∀ entry ∈ raw', HasTextKey entry)
    (hmem : ∀ (key : String) (value : Value), key ≠ "" →
      ((.string key, value) ∈ raw ↔ (.string key, value) ∈ raw')) : SameContent raw raw' where
  text := htext
  named hempty _ := hmem _ _ hempty
  options := by simp only [hmem optionsKey _ (by decide)]
  gives field value := by simp only [Gives, hmem optionsKey _ (by decide)]

/-- The options are other ones that are as good and give the fields the same values. -/
theorem of_options {before after : RawDeclaration} {written written' : Mapping}
    (hgood : AreOptions (.mapping written) ↔ AreOptions (.mapping written'))
    (hgiven : ∀ field value, OptionEntries.Given written field value ↔
      OptionEntries.Given written' field value) :
    SameContent (before ++ (.string optionsKey, .mapping written) :: after)
      (before ++ (.string optionsKey, .mapping written') :: after) where
  text := by simp [or_imp, forall_and, HasTextKey]
  named _ hkey := by simp [hkey]
  options := by simp [or_imp, forall_and, hgood]
  gives field value := by simp [Gives, or_and_right, exists_or, hgiven]

theorem names (h : SameContent raw raw') (hraw : Names raw key found) : Names raw' key found where
  text := h.text.mp hraw.text
  mem := (h.named hraw.ne_empty hraw.ne_optionsKey).mp hraw.mem
  ne_empty := hraw.ne_empty
  ne_optionsKey := hraw.ne_optionsKey
  only other value hmem := by
    -- an entry of the second mapping is one of the first, unless its key is one of the exceptions
    by_cases hempty : other = ""
    · exact .inr (.inl hempty)
    · by_cases hother : other = optionsKey
      · exact .inr (.inr hother)
      · exact hraw.only other value ((h.named hempty hother).mpr hmem)

theorem isReadable (h : SameContent raw raw') (hraw : IsReadable raw) : IsReadable raw' := by
  obtain ⟨⟨key, found, hnames, hscalar⟩, hoptions⟩ := hraw
  exact ⟨⟨key, found, h.names hnames, hscalar⟩, h.options.mp hoptions⟩

theorem isReadFrom (h : SameContent raw raw') (hraw : d.IsReadFrom raw) : d.IsReadFrom raw' := by
  obtain ⟨found, hnames, hvalue⟩ := hraw.names
  refine ⟨⟨found, h.names hnames, hvalue⟩, ?_, ?_⟩
  · exact fun field value hgives => hraw.given field value ((h.gives field value).mpr hgives)
  · exact fun field hnot =>
      hraw.default field fun value hgives => hnot value ((h.gives field value).mp hgives)

/-- **Mappings of the same content are the same declaration.** -/
theorem ofRaw_eq_ok_iff (h : SameContent raw raw') (hraw : HasDistinctKeys raw)
    (hraw' : HasDistinctKeys raw') : ofRaw raw = .ok d ↔ ofRaw raw' = .ok d := by
  rw [Declaration.ofRaw_eq_ok_iff hraw, Declaration.ofRaw_eq_ok_iff hraw']
  constructor
  · exact fun ⟨hreadable, hfrom⟩ => ⟨h.isReadable hreadable, h.isReadFrom hfrom⟩
  · exact fun ⟨hreadable, hfrom⟩ => ⟨h.symm.isReadable hreadable, h.symm.isReadFrom hfrom⟩

end SameContent

theorem hasDistinctKeys_options {before after : RawDeclaration} {written written' : Mapping}
    (h : HasDistinctKeys (before ++ (.string optionsKey, .mapping written) :: after))
    (hwritten : (written'.map Prod.fst).Nodup) :
    HasDistinctKeys (before ++ (.string optionsKey, .mapping written') :: after) := by
  refine ⟨by simpa using h.keys, fun entries hmem => ?_⟩
  simp only [List.mem_append, List.mem_cons, Prod.mk.injEq, Value.mapping.injEq, true_and] at hmem
  rcases hmem with hmem | rfl | hmem
  · exact h.options entries (List.mem_append_left _ hmem)
  · exact hwritten
  · exact h.options entries (List.mem_append_right _ (List.mem_cons_of_mem _ hmem))

/-! ## The order of the entries -/

/-- The same entries in another order, or the same entries with the options in another order. -/
inductive Reordered : RawDeclaration → RawDeclaration → Prop where
  | entries {raw raw' : RawDeclaration} (h : raw.Perm raw') : Reordered raw raw'
  | options {before after : RawDeclaration} {written written' : Mapping}
    (h : written.Perm written') :
    Reordered (before ++ (.string optionsKey, .mapping written) :: after)
      (before ++ (.string optionsKey, .mapping written') :: after)
  | trans {raw raw' raw'' : RawDeclaration} (h : Reordered raw raw') (h' : Reordered raw' raw'') :
    Reordered raw raw''

namespace Reordered

variable {raw' : RawDeclaration}

theorem sameContent (h : Reordered raw raw') : SameContent raw raw' := by
  induction h with
  | entries h => exact .of_mem_iff (by simp only [h.mem_iff]) fun _ _ _ => h.mem_iff
  | options h =>
    refine .of_options (by simp only [areOptions_mapping_iff, h.mem_iff])
      fun field value => ⟨?_, ?_⟩
    · exact fun hgiven => ⟨h.mem_iff.mp hgiven.mem, hgiven.isNull⟩
    · exact fun hgiven => ⟨h.mem_iff.mpr hgiven.mem, hgiven.isNull⟩
  | trans _ _ ih ih' => exact ih.trans ih'

theorem hasDistinctKeys (h : Reordered raw raw') (hraw : HasDistinctKeys raw) :
    HasDistinctKeys raw' := by
  induction h with
  | entries h =>
    exact ⟨(h.map Prod.fst).nodup_iff.mp hraw.keys,
      fun written hmem => hraw.options written (h.mem_iff.mpr hmem)⟩
  | @options before after written written' h =>
    have hwritten : (written.map Prod.fst).Nodup := hraw.options written (by simp)
    exact hasDistinctKeys_options hraw ((h.map Prod.fst).nodup_iff.mp hwritten)
  | trans _ _ ih ih' => exact ih' (ih hraw)

/-- **The order of the entries does not matter.** -/
theorem ofRaw_eq_ok_iff (h : Reordered raw raw') (hraw : HasDistinctKeys raw) :
    ofRaw raw = .ok d ↔ ofRaw raw' = .ok d :=
  h.sameContent.ofRaw_eq_ok_iff hraw (h.hasDistinctKeys hraw)

end Reordered

/-! ## All that is read and reported -/

/-- **A mapping is read if it is readable, whatever the order of its entries, and otherwise its
first fault is reported.** -/
theorem ofRaw_reads_or_reports {raw : RawDeclaration} (h : HasDistinctKeys raw) :
    ((∃ d, ofRaw raw = .ok d) ↔ IsReadable raw) ∧
      (∀ d, ofRaw raw = .ok d ↔ IsReadable raw ∧ d.IsReadFrom raw) ∧
      (∀ raw', Reordered raw raw' → ∀ d, ofRaw raw = .ok d ↔ ofRaw raw' = .ok d) ∧
      ∀ e, ofRaw raw = .error e ↔ FirstFault raw e :=
  ⟨exists_ofRaw_eq_ok_iff h, fun _ => ofRaw_eq_ok_iff h,
    fun _ hreordered _ => hreordered.ofRaw_eq_ok_iff h, fun _ => ofRaw_eq_error_iff h⟩

/-- The options come first here, one of them is a null under no name of an option, and the value has
a tag. A number is read as its text, and null as the empty text. -/
theorem ofRaw_reads_or_reports_host :
    let written : Mapping := [(.string "ghost", .null), (.string "is_expand", .string "No"),
      (.string "value_options", .sequence [.bool true, .string "b"])]
    let raw : RawDeclaration := [(.string optionsKey, .mapping written),
      (.string "HOST", .tagged "name" (.string "a.b"))]
    let host : Declaration :=
      { key := "HOST", value := "a.b", options := { expand := false },
        info := { valueOptions := ["true", "b"] } }
    HasDistinctKeys raw ∧ IsReadable raw ∧ host.IsReadFrom raw ∧ ofRaw raw.reverse = .ok host ∧
      IsReadFrom { key := "PORT", value := "12" } [(.string "PORT", .number (.integer 12))] ∧
      IsReadFrom { key := "PROXY", value := "" } [(.string "PROXY", .null)] ∧
      FirstFault [(.string "HOST", .sequence []), (.string optionsKey, .bool true)]
        (.nonScalarValue "HOST" "a list") := by
  intro written raw host
  have hraw : HasDistinctKeys raw := by
    refine ⟨by simp [raw, optionsKey], fun entries hmem => ?_⟩
    obtain rfl : entries = written := by simpa [raw, optionsKey] using hmem
    simp [written]
  have hsingle : ∀ key value, key ≠ optionsKey → HasDistinctKeys [(.string key, value)] := by
    intro key value hkey
    refine ⟨by simp, fun entries hmem => ?_⟩
    obtain ⟨hsame, -⟩ : optionsKey = key ∧ .mapping entries = value := by simpa using hmem
    exact absurd hsame.symm hkey
  have hbad : HasDistinctKeys
      [(.string "HOST", .sequence []), (.string optionsKey, .bool true)] := by
    refine ⟨by simp [optionsKey], fun entries hmem => ?_⟩
    simp at hmem
  obtain ⟨-, hread, hreordered, -⟩ := ofRaw_reads_or_reports hraw
  have hhost : ofRaw raw = .ok host := by rfl
  obtain ⟨hreadable, hfrom⟩ := (hread host).mp hhost
  refine ⟨hraw, hreadable, hfrom, ?_, ?_, ?_, ?_⟩
  · exact (hreordered raw.reverse (.entries raw.reverse_perm.symm) host).mp hhost
  · exact (((ofRaw_reads_or_reports (hsingle "PORT" _ (by decide))).2.1 _).mp rfl).2
  · exact (((ofRaw_reads_or_reports (hsingle "PROXY" _ (by decide))).2.1 _).mp rfl).2
  · exact ((ofRaw_reads_or_reports hbad).2.2.2 _).mp rfl

end OrderedEnv.Declaration
