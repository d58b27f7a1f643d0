import OrderedEnv.Declaration.Raw

/-!
# Declarations survive being written

`Declaration.toRaw` writes a declaration and `Declaration.ofRaw` reads one. If the key names a
variable, reading what was written gives the declaration back without its blanks (`ofRaw_toRaw`),
and otherwise what was written cannot be read.

## In two steps

* **The options.** The writer joins one short mapping for each option. `Reads o entries o'` says
  that the reader goes over some entries from `o` to `o'`, so the options are read back piece by
  piece, with one lemma for each form of option.
* **The declaration.** With the options settled, two entries are left, and the reader tells them
  apart by their keys.
-/

namespace OrderedEnv

open Yaml

/-! ## Blanks -/

/-- The description with the texts that are empty, and an empty mapping of free data, left out. -/
def Description.withoutBlanks (info : Description) : Description :=
  { info with
    title := info.title.filter (!·.isEmpty)
    description := info.description.filter (!·.isEmpty)
    summary := info.summary.filter (!·.isEmpty)
    category := info.category.filter (!·.isEmpty)
    extra := info.extra.filter (!·.isEmpty) }

/-- The declaration with a description that has no blanks. -/
def Declaration.withoutBlanks (d : Declaration) : Declaration :=
  { d with info := d.info.withoutBlanks }

/-- No text is there but empty, and no free data either. -/
structure Description.HasNoBlanks (info : Description) : Prop where
  title : info.title ≠ some ""
  description : info.description ≠ some ""
  summary : info.summary ≠ some ""
  category : info.category ≠ some ""
  extra : info.extra ≠ some []

theorem filter_eq_self_of_ne_some_empty {text : Option String} (h : text ≠ some "") :
    text.filter (!·.isEmpty) = text := by
  cases text with
  | none => rfl
  | some t =>
    have ht : t.isEmpty = false := by
      rw [Bool.eq_false_iff, ne_eq, String.isEmpty_iff]
      exact fun he => h (congrArg some he)
    simp [Option.filter_some, ht]

theorem Description.withoutBlanks_eq_self {info : Description} (h : info.HasNoBlanks) :
    info.withoutBlanks = info := by
  have hextra : info.extra.filter (!·.isEmpty) = info.extra := by
    cases he : info.extra with
    | none => rfl
    | some entries =>
      cases entries with
      | nil => exact absurd he h.extra
      | cons entry rest => rfl
  unfold withoutBlanks
  rw [filter_eq_self_of_ne_some_empty h.title, filter_eq_self_of_ne_some_empty h.description,
    filter_eq_self_of_ne_some_empty h.summary, filter_eq_self_of_ne_some_empty h.category, hextra]

theorem Declaration.withoutBlanks_eq_self {d : Declaration} (h : d.info.HasNoBlanks) :
    d.withoutBlanks = d := by
  unfold withoutBlanks
  rw [Description.withoutBlanks_eq_self h]

/-! ## Reading one option back -/

namespace OptionEntries

/-- Reading some entries goes from `o` to `o'`. -/
def Reads (o : OptionEntries) (entries : Mapping) (o' : OptionEntries) : Prop :=
  entries.foldlM add o = .ok o'

theorem Reads.append {o o' o'' : OptionEntries} {entries entries' : Mapping}
    (h : Reads o entries o') (h' : Reads o' entries' o'') : Reads o (entries ++ entries') o'' := by
  unfold Reads at *
  rw [List.foldlM_append, h]
  exact h'

theorem reads_nil {o o' : OptionEntries} (h : o' = o) : Reads o [] o' := by
  rw [h]
  rfl

theorem reads_single {o o' : OptionEntries} {name : String} {value : Value}
    (hn : value.isNull = false) (h : o.set name value = .ok o') :
    Reads o [(.string name, value)] o' := by
  unfold Reads
  rw [List.foldlM_cons, add, hn]
  simp only [Bool.false_eq_true, if_false, h]
  rfl

/-!
In the lemmas of this section `put` changes the field of one option. Leaving the option out changes
nothing, because nothing was read for it yet.
-/

variable {o : OptionEntries} {name : String}

theorem reads_textEntry (put : OptionEntries → Option String → OptionEntries)
    (hnone : put o none = o)
    (hset : ∀ t, o.set name (.string t) = .ok (put o (some t))) (text : Option String) :
    Reads o (textEntry name text) (put o (text.filter (!·.isEmpty))) := by
  cases text with
  | none => exact reads_nil hnone
  | some t =>
    unfold textEntry
    cases ht : t.isEmpty with
    | true => simpa [Option.filter_some, ht, hnone] using reads_nil (o := o) rfl
    | false => simpa [Option.filter_some, ht] using reads_single rfl (hset t)

theorem mapM_readText_map_string (name : String) (texts : List String) :
    (texts.map Value.string).mapM (readText name .textListItem) = .ok texts := by
  induction texts with
  | nil => rfl
  | cons t rest ih =>
    rw [List.map_cons, List.mapM_cons, ih]
    rfl

theorem reads_textListEntry (put : OptionEntries → Option (List String) → OptionEntries)
    (hnone : put o none = o)
    (hset : ∀ ts, o.set name (.sequence (ts.map .string)) = .ok (put o (some ts)))
    (texts : List String) :
    Reads o (textListEntry name texts) (put o (if texts.isEmpty then none else some texts)) := by
  unfold textListEntry
  cases texts with
  | nil => exact reads_nil hnone
  | cons t rest => exact reads_single rfl (hset _)

theorem reads_flagEntry (put : OptionEntries → Option Bool → OptionEntries)
    (hnone : put o none = o)
    (hset : ∀ flag, o.set name (.bool flag) = .ok (put o (some flag))) (flag default : Bool) :
    Reads o (flagEntry name flag default) (put o (if flag = default then none else some flag)) := by
  unfold flagEntry
  split
  · exact reads_nil hnone
  · exact reads_single rfl (hset flag)

theorem reads_mappingEntry (put : OptionEntries → Option Mapping → OptionEntries)
    (hnone : put o none = o)
    (hset : ∀ entries, o.set name (.mapping entries) = .ok (put o (some entries)))
    (entries : Option Mapping) :
    Reads o (mappingEntry name entries) (put o (entries.filter (!·.isEmpty))) := by
  cases entries with
  | none => exact reads_nil hnone
  | some entries =>
    cases entries with
    | nil => exact reads_nil hnone
    | cons entry rest => exact reads_single rfl (hset _)

/-! ## Reading all options back -/

/-- The entries with one text, list, flag or mapping for each option that is written. -/
def ofWritten (options : Options) (info : Description) : OptionEntries where
  title := info.title.filter (!·.isEmpty)
  description := info.description.filter (!·.isEmpty)
  summary := info.summary.filter (!·.isEmpty)
  category := info.category.filter (!·.isEmpty)
  valueOptions := if info.valueOptions.isEmpty then none else some info.valueOptions
  isRequired := if info.isRequired = false then none else some info.isRequired
  isExpand := if options.expand = ({} : Options).expand then none else some options.expand
  isDontChangeValue :=
    if info.isDontChangeValue = false then none else some info.isDontChangeValue
  isTemplate := if info.isTemplate = false then none else some info.isTemplate
  isSensitive :=
    if options.sensitive = ({} : Options).sensitive then none else some options.sensitive
  skipIfEmpty :=
    if options.skipIfEmpty = ({} : Options).skipIfEmpty then none else some options.skipIfEmpty
  unset := if options.unset = ({} : Options).unset then none else some options.unset
  extra := info.extra.filter (!·.isEmpty)

/-- **The reader finds the options that the writer wrote.** -/
theorem ofMapping_optionMapping (options : Options) (info : Description) :
    ofMapping (optionMapping options info) = .ok (ofWritten options info) := by
  have list (o : OptionEntries) (ts : List String) :
      o.set "value_options" (.sequence (ts.map .string)) =
        .ok { o with valueOptions := some ts } := by
    show (readTextList "value_options" (.sequence (ts.map .string))).map _ = _
    rw [readTextList, mapM_readText_map_string]
    rfl
  -- the writer joins the options in this order, so the reader meets them in this order
  have read : Reads {} (optionMapping options info) (ofWritten options info) :=
    (reads_textEntry (fun o t => { o with title := t }) rfl (fun _ => rfl) info.title)
    |>.append (reads_textEntry (fun o t => { o with description := t }) rfl (fun _ => rfl)
      info.description)
    |>.append (reads_textEntry (fun o t => { o with summary := t }) rfl (fun _ => rfl) info.summary)
    |>.append (reads_textEntry (fun o t => { o with category := t }) rfl (fun _ => rfl)
      info.category)
    |>.append (reads_textListEntry (fun o ts => { o with valueOptions := ts }) rfl
      (fun _ => list _ _) info.valueOptions)
    |>.append (reads_flagEntry (fun o b => { o with isRequired := b }) rfl (fun _ => rfl)
      info.isRequired _)
    |>.append (reads_flagEntry (fun o b => { o with isExpand := b }) rfl (fun _ => rfl)
      options.expand _)
    |>.append (reads_flagEntry (fun o b => { o with isDontChangeValue := b }) rfl (fun _ => rfl)
      info.isDontChangeValue _)
    |>.append (reads_flagEntry (fun o b => { o with isTemplate := b }) rfl (fun _ => rfl)
      info.isTemplate _)
    |>.append (reads_flagEntry (fun o b => { o with isSensitive := b }) rfl (fun _ => rfl)
      options.sensitive _)
    |>.append (reads_flagEntry (fun o b => { o with skipIfEmpty := b }) rfl (fun _ => rfl)
      options.skipIfEmpty _)
    |>.append (reads_flagEntry (fun o b => { o with unset := b }) rfl (fun _ => rfl)
      options.unset _)
    |>.append (reads_mappingEntry (fun o m => { o with extra := m }) rfl (fun _ => rfl) info.extra)
  exact read

theorem getD_flag (flag default : Bool) :
    (if flag = default then none else some flag).getD default = flag := by
  split
  · next h => exact h.symm
  · rfl

theorem options_ofWritten (options : Options) (info : Description) :
    (ofWritten options info).options = options := by
  simp only [OptionEntries.options, ofWritten, getD_flag]

theorem info_ofWritten (options : Options) (info : Description) :
    (ofWritten options info).info = info.withoutBlanks := by
  have hlist : (if info.valueOptions.isEmpty then none else some info.valueOptions).getD [] =
      info.valueOptions := by
    cases info.valueOptions <;> rfl
  simp only [OptionEntries.info, ofWritten, getD_flag, hlist, Description.withoutBlanks]

end OptionEntries

/-! ## The options do not show blanks -/

theorem textEntry_filter (name : String) (text : Option String) :
    textEntry name (text.filter (!·.isEmpty)) = textEntry name text := by
  cases text with
  | none => rfl
  | some t => cases ht : t.isEmpty <;> simp [Option.filter_some, textEntry, ht]

theorem mappingEntry_filter (name : String) (entries : Option Mapping) :
    mappingEntry name (entries.filter (!·.isEmpty)) = mappingEntry name entries := by
  cases entries with
  | none => rfl
  | some entries => cases entries <;> rfl

theorem optionMapping_withoutBlanks (options : Options) (info : Description) :
    optionMapping options info.withoutBlanks = optionMapping options info := by
  simp only [optionMapping, Description.withoutBlanks, textEntry_filter, mappingEntry_filter]

namespace Declaration

/-- A declaration is written just like the one without its blanks. -/
theorem toRaw_withoutBlanks (d : Declaration) : d.withoutBlanks.toRaw = d.toRaw := by
  unfold toRaw withoutBlanks
  rw [optionMapping_withoutBlanks]

/-! ## The two entries -/

/-- Without options, the variable stands alone. -/
theorem toRaw_of_eq_nil {d : Declaration} (h : optionMapping d.options d.info = []) :
    d.toRaw = [(.string d.key, .string d.value)] := by
  unfold toRaw
  rw [h]

/-- The options stand behind the variable. -/
theorem toRaw_of_ne_nil {d : Declaration} (hkey : d.key ≠ optionsKey)
    (h : optionMapping d.options d.info ≠ []) :
    d.toRaw = [(.string d.key, .string d.value),
      (.string optionsKey, .mapping (optionMapping d.options d.info))] := by
  unfold toRaw
  split
  · next hnil => exact absurd hnil h
  · simp [Mapping.insert, Value.same, hkey]

/-- When the key is that of the options, the options take the place of the variable. -/
theorem toRaw_of_key_eq {d : Declaration} (hkey : d.key = optionsKey) :
    ∃ value, d.toRaw = [(.string optionsKey, value)] := by
  unfold toRaw
  rw [hkey]
  split
  · exact ⟨_, rfl⟩
  · exact ⟨_, by simp [Mapping.insert, Value.same]; rfl⟩

theorem isVariableKey_iff (key : String) :
    isVariableKey key = true ↔ key ≠ "" ∧ key ≠ optionsKey := by
  simp [isVariableKey, and_comm]

/-- The declaration that the parts of a mapping make up. -/
theorem ofRaw_of_parts {raw : RawDeclaration} {entries : List (String × Value)} {key text : String}
    {found : Value} {written : OptionEntries} (htext : textEntries raw = .ok entries)
    (hvariable : variableEntry entries = .ok (key, found))
    (hvalue : found.scalarText? = some text) (hoptions : optionEntries entries = .ok written) :
    ofRaw raw = .ok ⟨key, text, written.options, written.info⟩ := by
  simp only [ofRaw, htext, hvariable, hvalue, hoptions, bind, Except.bind, pure, Except.pure]

/-- **What was written is read back, without its blanks.** -/
theorem ofRaw_toRaw {d : Declaration} (hne : d.key ≠ "") (hkey : d.key ≠ optionsKey) :
    ofRaw d.toRaw = .ok d.withoutBlanks := by
  have hvar : isVariableKey d.key = true := (isVariableKey_iff _).mpr ⟨hne, hkey⟩
  have hopt : isVariableKey optionsKey = false := rfl
  have hother : (optionsKey == d.key) = false := beq_false_of_ne hkey.symm
  have hread := OptionEntries.ofMapping_optionMapping d.options d.info
  have hresult : d.withoutBlanks = ⟨d.key, d.value,
      (OptionEntries.ofWritten d.options d.info).options,
      (OptionEntries.ofWritten d.options d.info).info⟩ := by
    rw [OptionEntries.options_ofWritten, OptionEntries.info_ofWritten]
    rfl
  rw [hresult]
  by_cases hm : optionMapping d.options d.info = []
  · rw [hm] at hread
    obtain hread : {} = OptionEntries.ofWritten d.options d.info := Except.ok.inj hread
    have hvariable : variableEntry [(d.key, .string d.value)] = .ok (d.key, .string d.value) := by
      simp [variableEntry, hvar]
    have hoptions : optionEntries [(d.key, .string d.value)] =
        .ok (OptionEntries.ofWritten d.options d.info) := by
      simp [optionEntries, List.lookup_cons, hother, hread]
    rw [toRaw_of_eq_nil hm]
    exact ofRaw_of_parts rfl hvariable rfl hoptions
  · have hvariable : variableEntry [(d.key, .string d.value),
        (optionsKey, .mapping (optionMapping d.options d.info))] =
        .ok (d.key, .string d.value) := by
      simp [variableEntry, hvar, hopt]
    have hoptions : optionEntries [(d.key, .string d.value),
        (optionsKey, .mapping (optionMapping d.options d.info))] =
        .ok (OptionEntries.ofWritten d.options d.info) := by
      simp [optionEntries, List.lookup_cons, hother, hread]
    rw [toRaw_of_ne_nil hkey hm]
    exact ofRaw_of_parts rfl hvariable rfl hoptions

/-- Without an entry for a variable there is no declaration. -/
theorem ofRaw_of_missing {raw : RawDeclaration} {entries : List (String × Value)}
    (htext : textEntries raw = .ok entries)
    (h : ∀ entry ∈ entries, isVariableKey entry.1 = false) :
    ofRaw raw = .error (.missingKey (entries.map Prod.fst)) := by
  have hfilter : entries.filter (fun entry => isVariableKey entry.1) = [] :=
    List.filter_eq_nil_iff.mpr fun entry hmem => by simp [h entry hmem]
  simp only [ofRaw, htext, variableEntry, hfilter, bind, Except.bind]

/-- A declaration whose key names no variable cannot be read back. -/
theorem ofRaw_toRaw_eq_error {d : Declaration} (h : d.key = "" ∨ d.key = optionsKey) :
    ∃ keys, ofRaw d.toRaw = .error (.missingKey keys) := by
  have hopt : isVariableKey optionsKey = false := rfl
  rcases h with hkey | hkey
  · have hempty : isVariableKey d.key = false := by rw [hkey]; rfl
    by_cases hm : optionMapping d.options d.info = []
    · rw [toRaw_of_eq_nil hm]
      exact ⟨_, ofRaw_of_missing rfl (by simp [hempty])⟩
    · rw [toRaw_of_ne_nil (by rw [hkey]; decide) hm]
      exact ⟨_, ofRaw_of_missing rfl (by simp [hempty, hopt])⟩
  · obtain ⟨value, hraw⟩ := toRaw_of_key_eq hkey
    rw [hraw]
    exact ⟨_, ofRaw_of_missing rfl (by simp [hopt])⟩

/-! ## Which options are written -/

/-- What a declaration says besides its key and its value. -/
inductive Field where
  | title
  | description
  | summary
  | category
  | valueOptions
  | isRequired
  | isExpand
  | isDontChangeValue
  | isTemplate
  | isSensitive
  | skipIfEmpty
  | unset
  | extra
  deriving DecidableEq, Repr

namespace Field

/-- The fields in the order in which they are written. -/
def all : List Field :=
  [title, description, summary, category, valueOptions, isRequired, isExpand, isDontChangeValue,
    isTemplate, isSensitive, skipIfEmpty, unset, extra]

/-- The name under which a field is written. -/
def name : Field → String
  | title => "title"
  | description => "description"
  | summary => "summary"
  | category => "category"
  | valueOptions => "value_options"
  | isRequired => "is_required"
  | isExpand => "is_expand"
  | isDontChangeValue => "is_dont_change_value"
  | isTemplate => "is_template"
  | isSensitive => "is_sensitive"
  | skipIfEmpty => "skip_if_empty"
  | unset => "unset"
  | extra => "meta"

theorem mem_all (field : Field) : field ∈ all := by
  cases field <;> decide

/-- A declaration in which every field has its default. -/
def plain : Declaration := { key := "", value := "" }

/-- The field is neither blank nor at its default. Texts, lists and free data that are left out are
blank. -/
def isNotable (d : Declaration) : Field → Bool
  | title => d.info.title.any (!·.isEmpty)
  | description => d.info.description.any (!·.isEmpty)
  | summary => d.info.summary.any (!·.isEmpty)
  | category => d.info.category.any (!·.isEmpty)
  | valueOptions => !d.info.valueOptions.isEmpty
  | isRequired => d.info.isRequired != plain.info.isRequired
  | isExpand => d.options.expand != plain.options.expand
  | isDontChangeValue => d.info.isDontChangeValue != plain.info.isDontChangeValue
  | isTemplate => d.info.isTemplate != plain.info.isTemplate
  | isSensitive => d.options.sensitive != plain.options.sensitive
  | skipIfEmpty => d.options.skipIfEmpty != plain.options.skipIfEmpty
  | unset => d.options.unset != plain.options.unset
  | extra => d.info.extra.any (!·.isEmpty)

/-- The value of a field in the form in which it is written. -/
def written (d : Declaration) : Field → Value
  | title => .string (d.info.title.getD "")
  | description => .string (d.info.description.getD "")
  | summary => .string (d.info.summary.getD "")
  | category => .string (d.info.category.getD "")
  | valueOptions => .sequence (d.info.valueOptions.map .string)
  | isRequired => .bool d.info.isRequired
  | isExpand => .bool d.options.expand
  | isDontChangeValue => .bool d.info.isDontChangeValue
  | isTemplate => .bool d.info.isTemplate
  | isSensitive => .bool d.options.sensitive
  | skipIfEmpty => .bool d.options.skipIfEmpty
  | unset => .bool d.options.unset
  | extra => .mapping (d.info.extra.getD [])

/-- The entry of one field, none if it is not worth writing. -/
def entry (d : Declaration) (field : Field) : Mapping :=
  if field.isNotable d then [(.string field.name, field.written d)] else []

theorem textEntry_eq (name : String) (text : Option String) :
    textEntry name text =
      if text.any (!·.isEmpty) then [(.string name, .string (text.getD ""))] else [] := by
  cases text with
  | none => rfl
  | some t => cases ht : t.isEmpty <;> simp [textEntry, ht]

theorem textListEntry_eq (name : String) (texts : List String) :
    textListEntry name texts =
      if !texts.isEmpty then [(.string name, .sequence (texts.map .string))] else [] := by
  cases texts <;> rfl

theorem flagEntry_eq (name : String) (flag default : Bool) :
    flagEntry name flag default = if flag != default then [(.string name, .bool flag)] else [] := by
  cases flag <;> cases default <;> rfl

theorem mappingEntry_eq (name : String) (entries : Option Mapping) :
    mappingEntry name entries =
      if entries.any (!·.isEmpty) then [(.string name, .mapping (entries.getD []))] else [] := by
  cases entries with
  | none => rfl
  | some entries => cases entries <;> rfl

/-- The writer goes through the fields, and passes over those that are not notable. -/
theorem optionMapping_eq_flatMap (d : Declaration) :
    optionMapping d.options d.info = all.flatMap (entry d) := by
  simp only [optionMapping, textEntry_eq, textListEntry_eq, flagEntry_eq, mappingEntry_eq, all,
    List.flatMap_cons, List.flatMap_nil, List.append_nil, List.append_assoc]
  rfl

theorem flatMap_entry (d : Declaration) (fields : List Field) :
    fields.flatMap (entry d) =
      (fields.filter (·.isNotable d)).map fun field => (.string field.name, field.written d) := by
  induction fields with
  | nil => rfl
  | cons field rest ih =>
    rw [List.flatMap_cons, ih, entry]
    cases hn : field.isNotable d <;> simp [hn]

/-- **The options that are written are the notable fields.** -/
theorem optionMapping_eq (d : Declaration) :
    optionMapping d.options d.info =
      (all.filter (·.isNotable d)).map fun field => (.string field.name, field.written d) :=
  (optionMapping_eq_flatMap d).trans (flatMap_entry d all)

theorem optionMapping_ne_nil_iff (d : Declaration) :
    optionMapping d.options d.info ≠ [] ↔ ∃ field : Field, field.isNotable d = true := by
  rw [optionMapping_eq, ne_eq, List.map_eq_nil_iff, List.filter_eq_nil_iff]
  constructor
  · intro h
    exact Classical.byContradiction fun hnone => h fun field _ hn => hnone ⟨field, hn⟩
  · rintro ⟨field, hn⟩ h
    exact h field (mem_all field) hn

end Field

/-- The options are written if some field is notable, and then they are the notable fields. -/
theorem mem_toRaw_options_iff {d : Declaration} (hkey : d.key ≠ optionsKey) (value : Value) :
    (.string optionsKey, value) ∈ d.toRaw ↔
      (∃ field : Field, field.isNotable d = true) ∧
        value = .mapping ((Field.all.filter (·.isNotable d)).map fun field =>
          (.string field.name, field.written d)) := by
  rw [← Field.optionMapping_ne_nil_iff, ← Field.optionMapping_eq]
  by_cases hm : optionMapping d.options d.info = []
  · rw [toRaw_of_eq_nil hm]
    simp [hm, hkey.symm]
  · rw [toRaw_of_ne_nil hkey hm]
    simp [hm, hkey.symm]

/-! ## The round trip -/

/-- A declaration can be read back if its key names a variable. -/
theorem exists_ofRaw_toRaw_iff (d : Declaration) :
    (∃ e, ofRaw d.toRaw = .ok e) ↔ d.key ≠ "" ∧ d.key ≠ optionsKey := by
  constructor
  · rintro ⟨e, he⟩
    refine ⟨fun h => ?_, fun h => ?_⟩
    · obtain ⟨keys, herror⟩ := ofRaw_toRaw_eq_error (.inl h)
      rw [herror] at he
      cases he
    · obtain ⟨keys, herror⟩ := ofRaw_toRaw_eq_error (.inr h)
      rw [herror] at he
      cases he
  · rintro ⟨hne, hkey⟩
    exact ⟨_, ofRaw_toRaw hne hkey⟩

/--
**Writing a declaration loses nothing but blanks.**

It can be read back just if its key names a variable. What is read is the declaration without its
blanks, which is written in the same way again. Options are written if some field is notable, and
then they are the notable fields in their order.
-/
theorem toRaw_loses_only_blanks (d : Declaration) :
    ((∃ e, ofRaw d.toRaw = .ok e) ↔ d.key ≠ "" ∧ d.key ≠ optionsKey) ∧
    (∀ e, ofRaw d.toRaw = .ok e →
      e = d.withoutBlanks ∧ (d.info.HasNoBlanks → e = d) ∧ e.toRaw = d.toRaw) ∧
    (d.key ≠ "" → d.key ≠ optionsKey →
      ((∃ value, (.string optionsKey, value) ∈ d.toRaw) ↔
        ∃ field : Field, field.isNotable d = true) ∧
      ∀ value, (.string optionsKey, value) ∈ d.toRaw →
        value = .mapping ((Field.all.filter (·.isNotable d)).map fun field =>
          (.string field.name, field.written d))) := by
  refine ⟨exists_ofRaw_toRaw_iff d, ?_, ?_⟩
  · intro e he
    obtain ⟨hne, hkey⟩ := (exists_ofRaw_toRaw_iff d).mp ⟨e, he⟩
    rw [ofRaw_toRaw hne hkey] at he
    obtain rfl : d.withoutBlanks = e := Except.ok.inj he
    exact ⟨rfl, withoutBlanks_eq_self, toRaw_withoutBlanks d⟩
  · intro hne hkey
    refine ⟨⟨?_, ?_⟩, fun value hmem => ((mem_toRaw_options_iff hkey value).mp hmem).2⟩
    · rintro ⟨value, hmem⟩
      exact ((mem_toRaw_options_iff hkey value).mp hmem).1
    · intro hn
      exact ⟨_, (mem_toRaw_options_iff hkey _).mpr ⟨hn, rfl⟩⟩

/-- A blank title is lost, a summary and a flag are kept. -/
theorem toRaw_loses_blank_title :
    let d : Declaration :=
      { key := "HOST", value := "example.com", options := { expand := false },
        info := { title := some "", summary := some "the host" } }
    let e : Declaration :=
      { key := "HOST", value := "example.com", options := { expand := false },
        info := { summary := some "the host" } }
    ofRaw d.toRaw = .ok e ∧ e.toRaw = d.toRaw := by
  intro d e
  obtain ⟨hexists, hread, -⟩ := toRaw_loses_only_blanks d
  obtain ⟨e', he'⟩ := hexists.mpr ⟨by decide, by decide⟩
  obtain ⟨rfl, -, hraw⟩ := hread e' he'
  exact ⟨he', hraw⟩

end Declaration

end OrderedEnv
