import OrderedEnv.Proofs.Declaration.Normalizing
import OrderedEnv.Proofs.Store.Loading

/-!
# What is rejected, and what is passed over

A mapping has to name one variable, and may have options besides. Nearly everything else that could
stand in it is rejected (`IsReadable.not_malformed`), so nearly nothing that was written can get
lost between loading a store and saving it. Two kinds of entries are an exception. They are passed
over before anyone asks whether they belong there:

* an entry whose key is the empty text, which is left out of the count of the variables
* a null among the options, whose name is not looked at

They make no difference to what is read (`PassesOver.ofRaw_eq_ok_iff`), and so they are not in what
is saved. What all other entries say is kept, unless it is the default or blank (`keptBy_toRaw`).
-/

namespace OrderedEnv

open Yaml

/-- There is nothing in the value. -/
def OptionValue.IsBlank (v : OptionValue) : Prop := v = .text "" ∨ v = .mapping []

namespace Declaration

/-! ## Malformed mappings -/

/-- The mapping is malformed, in a way that is noticed. -/
inductive Malformed (raw : RawDeclaration) : Prop where
  | keyNotText {entry : Value × Value} (hmem : entry ∈ raw) (h : ¬HasTextKey entry)
  | noVariable (h : ∀ entry ∈ raw, entry.1 = .string optionsKey ∨ entry.1 = .string "")
  | twoVariables {key other value value' : Value} (hmem : (key, value) ∈ raw)
    (hother : (other, value') ∈ raw) (hne : key ≠ other)
    (hkey : key ≠ .string optionsKey ∧ key ≠ .string "")
    (hkey' : other ≠ .string optionsKey ∧ other ≠ .string "")
  | optionsNotMap {options : Value} (hmem : (.string optionsKey, options) ∈ raw)
    (hnull : options ≠ .null) (hmap : ∀ entries, options ≠ .mapping entries)
  | optionKeyNotText {entries : Mapping} {entry : Value × Value}
    (hmem : (.string optionsKey, .mapping entries) ∈ raw) (hentry : entry ∈ entries)
    (h : ¬HasTextKey entry)
  | unknownOption {entries : Mapping} {key value : Value}
    (hmem : (.string optionsKey, .mapping entries) ∈ raw) (hentry : (key, value) ∈ entries)
    (hnull : value.untagged ≠ .null) (h : ∀ field : Field, key ≠ .string field.name)

/-- There are no other entries than that of the variable, that of the options with options in it,
and those that are passed over. -/
structure HoldsOnly (raw : RawDeclaration) (key : String) : Prop where
  mem : ∃ value, (.string key, value) ∈ raw
  keys : ∀ entry ∈ raw,
    entry.1 = .string key ∨ entry.1 = .string optionsKey ∨ entry.1 = .string ""
  options : ∀ options, (.string optionsKey, options) ∈ raw → options = .null ∨
    ∃ entries, options = .mapping entries ∧ ∀ entry ∈ entries,
      HasTextKey entry ∧ (entry.2.untagged = .null ∨ ∃ field : Field, entry.1 = .string field.name)

variable {raw raw' : RawDeclaration} {d : Declaration} {key : String} {found : Value}

theorem Names.keys (h : Names raw key found) : ∀ entry ∈ raw,
    entry.1 = .string key ∨ entry.1 = .string optionsKey ∨ entry.1 = .string "" := by
  intro entry hmem
  obtain ⟨name, hname⟩ := h.text entry hmem
  rw [hname]
  rcases h.only name entry.2 (hname ▸ hmem) with rfl | rfl | rfl
  · exact .inl rfl
  · exact .inr (.inr rfl)
  · exact .inr (.inl rfl)

theorem options_of_accepts {entry : Value × Value} (h : OptionEntries.Accepts entry) :
    HasTextKey entry ∧
      (entry.2.untagged = .null ∨ ∃ field : Field, entry.1 = .string field.name) := by
  obtain ⟨name, hname, hfield⟩ := h
  refine ⟨⟨name, hname⟩, ?_⟩
  rw [← Value.isNull_iff]
  cases hnull : entry.2.isNull with
  | true => exact .inl rfl
  | false =>
    obtain ⟨field, rfl, -⟩ := hfield hnull
    exact .inr ⟨field, hname⟩

theorem HoldsOnly.of_isReadable (h : IsReadable raw) (hnames : Names raw key found) :
    HoldsOnly raw key where
  mem := ⟨found, hnames.mem⟩
  keys := hnames.keys
  options options hmem := by
    rcases h.options options hmem with hnull | ⟨entries, hentries, haccepts⟩
    · exact .inl hnull
    · exact .inr ⟨entries, hentries, fun entry hentry => options_of_accepts (haccepts entry hentry)⟩

/-- **A mapping that can be read is not malformed.** -/
theorem IsReadable.not_malformed (h : IsReadable raw) : ¬Malformed raw := by
  obtain ⟨key, found, hnames, -⟩ := h.names
  have hholds := HoldsOnly.of_isReadable h hnames
  intro hmalformed
  -- each way to be malformed is something that `hholds` leaves no room for
  cases hmalformed with
  | keyNotText hmem hkey => exact hkey (hnames.text _ hmem)
  | noVariable hnone =>
    rcases hnone _ hnames.mem with hkey | hkey
    · exact hnames.ne_optionsKey (Value.string.inj hkey)
    · exact hnames.ne_empty (Value.string.inj hkey)
  | twoVariables hmem hother hne hkey hkey' =>
    have hfirst := (hholds.keys _ hmem).resolve_right (by simp [hkey])
    have hsecond := (hholds.keys _ hother).resolve_right (by simp [hkey'])
    exact hne (hfirst.trans hsecond.symm)
  | optionsNotMap hmem hnull hmap =>
    rcases hholds.options _ hmem with h | ⟨entries, h, -⟩
    · exact hnull h
    · exact hmap entries h
  | optionKeyNotText hmem hentry hkey =>
    have haccepts := areOptions_mapping_iff.mp (h.options _ hmem) _ hentry
    exact hkey (options_of_accepts haccepts).1
  | unknownOption hmem hentry hnull hunknown =>
    have haccepts := areOptions_mapping_iff.mp (h.options _ hmem) _ hentry
    rcases (options_of_accepts haccepts).2 with h | ⟨field, h⟩
    · exact hnull h
    · exact hunknown field h

theorem exists_error_of_malformed (h : HasDistinctKeys raw) (hmalformed : Malformed raw) :
    ∃ e, ofRaw raw = .error e := by
  cases hread : ofRaw raw with
  | error e => exact ⟨e, rfl⟩
  | ok d => exact absurd hmalformed ((exists_ofRaw_eq_ok_iff h).mp ⟨d, hread⟩).not_malformed

/-! ## Entries that are passed over -/

/-- The second mapping is the first one without an entry that is passed over. -/
inductive PassesOver : RawDeclaration → RawDeclaration → Prop where
  | emptyKey {before after : RawDeclaration} {value : Value} :
    PassesOver (before ++ (.string "", value) :: after) (before ++ after)
  | nullOption {before after : RawDeclaration} {first last : Mapping} {name : String}
    {value : Value} (h : value.untagged = .null) :
    PassesOver
      (before ++ (.string optionsKey, .mapping (first ++ (.string name, value) :: last)) :: after)
      (before ++ (.string optionsKey, .mapping (first ++ last)) :: after)

namespace PassesOver

theorem sameContent (h : PassesOver raw raw') : SameContent raw raw' := by
  cases h with
  | @emptyKey before after value =>
    refine .of_mem_iff (by simp [or_imp, forall_and, HasTextKey]) fun key value' hkey => ?_
    simp [hkey]
  | @nullOption before after first last name value hnull =>
    rw [← Value.isNull_iff] at hnull
    have haccepts : OptionEntries.Accepts (.string name, value) :=
      ⟨name, rfl, fun h => by simp [hnull] at h⟩
    refine .of_options ?_ fun field value' => ?_
    · simp [areOptions_mapping_iff, or_imp, forall_and, haccepts]
    · -- a null gives nothing, so it is none of the values that are given
      simp [OptionEntries.given_append_iff, OptionEntries.given_cons_iff, hnull]

theorem hasDistinctKeys (h : PassesOver raw raw') (hraw : HasDistinctKeys raw) :
    HasDistinctKeys raw' := by
  cases h with
  | @emptyKey before after value =>
    have hsub : (before ++ after).Sublist (before ++ (.string "", value) :: after) :=
      (List.sublist_cons_self _ _).append_left _
    exact ⟨hraw.keys.sublist (hsub.map Prod.fst),
      fun entries hmem => hraw.options entries (hsub.subset hmem)⟩
  | @nullOption before after first last name value =>
    have hsub : (first ++ last).Sublist (first ++ (.string name, value) :: last) :=
      (List.sublist_cons_self _ _).append_left _
    have hwritten := hraw.options (first ++ (.string name, value) :: last) (by simp)
    exact hasDistinctKeys_options hraw (hwritten.sublist (hsub.map Prod.fst))

/-- **What is passed over makes no difference.** -/
theorem ofRaw_eq_ok_iff (h : PassesOver raw raw') (hraw : HasDistinctKeys raw) :
    ofRaw raw = .ok d ↔ ofRaw raw' = .ok d :=
  h.sameContent.ofRaw_eq_ok_iff hraw (h.hasDistinctKeys hraw)

end PassesOver

/-! ## What is saved -/

/-- What the mapping says is still there in the one that was saved. An option may be missing if it
was blank or said nothing but the default. -/
structure KeptBy (raw saved : RawDeclaration) : Prop where
  named (key : String) (value : Value) (hempty : key ≠ "") (hkey : key ≠ optionsKey)
    (hmem : (.string key, value) ∈ raw) :
    ∃ text, value.scalarText? = some text ∧ (.string key, .string text) ∈ saved
  option (field : Field) (value : Value) (h : Gives raw field value) :
    ∃ v, v.form = field.form ∧ value.Says v ∧
      (field.get? Field.plain = some v ∨ v.IsBlank ∨
        ∃ value', Gives saved field value' ∧ value'.Says v)

theorem Field.isNull_written (d : Declaration) (field : Field) :
    (field.written d).isNull = false := by
  cases field <;> rfl

theorem forall₂_scalarText?_map_string (texts : List String) :
    List.Forall₂ (fun item text => item.scalarText? = some text) (texts.map Value.string)
      texts := by
  induction texts with
  | nil => exact .nil
  | cons text rest ih => exact .cons rfl ih

/-- A field is written as what it says. -/
theorem Field.says_written {field : Field} {v : OptionValue} (h : field.get? d = some v) :
    (field.written d).Says v := by
  cases field with
  | title | description | summary | category =>
    obtain ⟨text, htext, rfl⟩ := Option.map_eq_some_iff.mp h
    exact .text (by simp [written, htext, Value.scalarText?])
  | valueOptions =>
    obtain rfl := Option.some.inj h
    exact .texts (forall₂_scalarText?_map_string d.info.valueOptions)
  | isRequired | isExpand | isDontChangeValue | isTemplate | isSensitive | skipIfEmpty | unset =>
    obtain rfl := Option.some.inj h
    exact .flag _
  | extra =>
    obtain ⟨entries, hentries, rfl⟩ := Option.map_eq_some_iff.mp h
    simp only [written, hentries]
    exact .mapping entries

/-- A field that is not written has its default or is blank. -/
theorem Field.default_or_blank {field : Field} {v : OptionValue} (h : field.get? d = some v)
    (hplain : field.isNotable d = false) : field.get? plain = some v ∨ v.IsBlank := by
  cases field with
  | title | description | summary | category =>
    obtain ⟨text, htext, rfl⟩ := Option.map_eq_some_iff.mp h
    simp only [isNotable, htext, Option.any_some, Bool.not_eq_false', String.isEmpty_iff] at hplain
    exact .inr (.inl (congrArg _ hplain))
  | valueOptions =>
    simp only [isNotable, Bool.not_eq_false', List.isEmpty_iff] at hplain
    simp only [get?, hplain] at h
    exact .inl h
  | isRequired | isExpand | isDontChangeValue | isTemplate | isSensitive | skipIfEmpty | unset =>
    simp only [isNotable, bne_eq_false_iff_eq] at hplain
    simp only [get?, hplain] at h
    exact .inl h
  | extra =>
    obtain ⟨entries, hentries, rfl⟩ := Option.map_eq_some_iff.mp h
    simp only [isNotable, hentries, Option.any_some, Bool.not_eq_false', List.isEmpty_iff] at hplain
    exact .inr (.inr (congrArg _ hplain))

theorem gives_toRaw {field : Field} (hkey : d.key ≠ optionsKey) (h : field.isNotable d = true) :
    Gives d.toRaw field (field.written d) := by
  refine ⟨_, (mem_toRaw_options_iff hkey _).mpr ⟨⟨field, h⟩, rfl⟩, ?_, field.isNull_written d⟩
  exact List.mem_map.mpr ⟨field, List.mem_filter.mpr ⟨field.mem_all, h⟩, rfl⟩

theorem mem_toRaw (hkey : d.key ≠ optionsKey) : (.string d.key, .string d.value) ∈ d.toRaw := by
  by_cases hnil : optionMapping d.options d.info = []
  · rw [toRaw_of_eq_nil hnil]
    exact List.mem_singleton_self _
  · rw [toRaw_of_ne_nil hkey hnil]
    exact List.mem_cons_self

/-- **What was read is kept on saving.** -/
theorem keptBy_toRaw (h : d.IsReadFrom raw) (hkeys : (raw.map Prod.fst).Nodup) :
    KeptBy raw d.toRaw := by
  obtain ⟨found, hnames, hvalue⟩ := h.names
  constructor
  · intro key value hempty hkey hmem
    obtain rfl : key = d.key := by simpa [hempty, hkey] using hnames.only key value hmem
    obtain ⟨-, rfl⟩ := hnames.unique hkeys { hnames with mem := hmem }
    exact ⟨d.value, hvalue, mem_toRaw hkey⟩
  · intro field value hgives
    obtain ⟨v, hform, hsays, hget⟩ := h.given field value hgives
    refine ⟨v, hform, hsays, ?_⟩
    cases hnotable : field.isNotable d with
    | true =>
      exact .inr (.inr ⟨_, gives_toRaw hnames.ne_optionsKey hnotable, field.says_written hget⟩)
    | false => exact (field.default_or_blank hget hnotable).imp_right .inl

/-- What a store lists is kept when it is loaded and saved. -/
theorem keptBy_print {format : StoreFormat} {text saved : String} {raws : List RawDeclaration}
    {ds : List Declaration} (hkeys : ∀ raw ∈ raws, HasDistinctKeys raw)
    (hread : format.read text = .ok raws) (hparse : Store.parse format text = .ok ds)
    (hprint : Store.print format ds = .ok saved) :
    ∃ written, format.write? written = some saved ∧ List.Forall₂ KeptBy raws written := by
  have hnormalizes := (Store.parse_eq_ok_iff_normalizes hread).mp hparse
  refine ⟨ds.map toRaw, ?_, ?_⟩
  · unfold Store.print at hprint
    split at hprint
    · next h => rwa [Except.ok.inj hprint] at h
    · cases hprint
  · clear hread hparse hprint
    induction hnormalizes with
    | nil => exact .nil
    | @cons raw d raws ds hd _ ih =>
      obtain ⟨hraw, hkeys⟩ := List.forall_mem_cons.mp hkeys
      exact .cons (keptBy_toRaw (isReadFrom_of_ofRaw hraw hd) hraw.keys) (ih hkeys)

/--
**Malformed mappings are rejected, and nothing else gets lost but what is passed over.**

In a mapping that is read there are no other keys than that of the variable, that of the options and
the empty one, and no other options than the known ones and nulls. The variable and the options are
kept on saving. An entry with the empty key, or a null among the options, might as well not be
there.
-/
theorem ofRaw_rejects_malformed {raw : RawDeclaration} (h : HasDistinctKeys raw) :
    (Malformed raw → ∃ e, ofRaw raw = .error e) ∧
      (∀ d, ofRaw raw = .ok d → HoldsOnly raw d.key ∧ KeptBy raw d.toRaw) ∧
      (∀ raw' d, PassesOver raw raw' → (ofRaw raw = .ok d ↔ ofRaw raw' = .ok d)) ∧
      ∀ (format : StoreFormat) (text saved : String) (raws : List RawDeclaration)
        (ds : List Declaration), (∀ raw ∈ raws, HasDistinctKeys raw) →
        format.read text = .ok raws → Store.parse format text = .ok ds →
        Store.print format ds = .ok saved →
        ∃ written, format.write? written = some saved ∧ List.Forall₂ KeptBy raws written := by
  refine ⟨exists_error_of_malformed h, fun d hread => ?_,
    fun _ _ hpasses => hpasses.ofRaw_eq_ok_iff h, fun _ _ _ _ _ => keptBy_print⟩
  obtain ⟨hreadable, hfrom⟩ := (ofRaw_eq_ok_iff h).mp hread
  obtain ⟨found, hnames, -⟩ := hfrom.names
  exact ⟨.of_isReadable hreadable hnames, keptBy_toRaw hfrom h.keys⟩

/-- A mapping that has both kinds of entries that are passed over. Without them it is the same
declaration, and its flag is kept. With a second variable it is rejected, and so it is with an
unknown option that is set. -/
theorem ofRaw_rejects_malformed_host :
    let raw : RawDeclaration := [(.string "", .sequence []), (.string "HOST", .string "a.b"),
      (.string optionsKey, .mapping [(.string "unset", .string "Y"), (.string "ghost", .null)])]
    let plain : RawDeclaration := [(.string "HOST", .string "a.b"),
      (.string optionsKey, .mapping [(.string "unset", .bool true)])]
    let ghost : RawDeclaration := [(.string "HOST", .string "a.b"),
      (.string optionsKey, .mapping [(.string "ghost", .bool true)])]
    HasDistinctKeys raw ∧ KeptBy raw plain ∧
      HasDistinctKeys (raw ++ [(.string "PORT", .null)]) ∧
      (∃ e, ofRaw (raw ++ [(.string "PORT", .null)]) = .error e) ∧
      HasDistinctKeys ghost ∧ ∃ e, ofRaw ghost = .error e := by
  intro raw plain ghost
  have hraw : HasDistinctKeys raw := by
    refine ⟨by simp [raw, optionsKey], fun entries hmem => ?_⟩
    simp [raw, optionsKey] at hmem
    simp [hmem]
  have htwo : HasDistinctKeys (raw ++ [(.string "PORT", .null)]) := by
    refine ⟨by simp [raw, optionsKey], fun entries hmem => ?_⟩
    simp [raw, optionsKey] at hmem
    simp [hmem]
  have hghost : HasDistinctKeys ghost := by
    refine ⟨by simp [ghost, optionsKey], fun entries hmem => ?_⟩
    simp [ghost, optionsKey] at hmem
    simp [hmem]
  obtain ⟨-, hread, -, -⟩ := ofRaw_rejects_malformed hraw
  refine ⟨hraw, (hread { key := "HOST", value := "a.b", options := { unset := true } } rfl).2, htwo,
    (ofRaw_rejects_malformed htwo).1 ?_, hghost, (ofRaw_rejects_malformed hghost).1 ?_⟩
  · have hhost : (.string "HOST", .string "a.b") ∈ raw ++ [(.string "PORT", .null)] := by simp [raw]
    have hport : (.string "PORT", .null) ∈ raw ++ [(.string "PORT", .null)] := by simp [raw]
    exact .twoVariables hhost hport (by simp) (by simp [optionsKey]) (by simp [optionsKey])
  · have hoptions : (.string optionsKey, .mapping [(.string "ghost", .bool true)]) ∈ ghost := by
      simp [ghost]
    refine .unknownOption hoptions (List.mem_singleton_self _) (by simp [Value.untagged]) ?_
    intro field
    cases field <;> simp [Field.name]

/-- An option that does not exist, and a key that is empty. Neither mapping is rejected, and what
was odd in them is gone when they are saved. -/
theorem ofRaw_accepts_strays :
    let unknown : RawDeclaration := [(.string "A", .string "B"),
      (.string optionsKey, .mapping [(.string "test", .null)])]
    let empty : RawDeclaration := [(.string "", .string "x"), (.string "A", .string "B")]
    let a : Declaration := { key := "A", value := "B" }
    (HasDistinctKeys unknown ∧ (∀ field : Field, field.name ≠ "test") ∧ ofRaw unknown = .ok a) ∧
      (HasDistinctKeys empty ∧ ofRaw empty = .ok a) ∧
      a.toRaw = [(.string "A", .string "B")] := by
  intro unknown empty a
  refine ⟨⟨⟨by simp [unknown, optionsKey], fun entries hmem => ?_⟩, ?_, rfl⟩,
    ⟨⟨by simp [empty], fun entries hmem => ?_⟩, rfl⟩, rfl⟩
  · simp [unknown, optionsKey] at hmem
    simp [hmem]
  · intro field
    cases field <;> decide
  · simp [empty, optionsKey] at hmem

end Declaration

end OrderedEnv
