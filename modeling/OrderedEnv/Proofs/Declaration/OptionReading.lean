import OrderedEnv.Proofs.Declaration.RoundTrip
import OrderedEnv.Proofs.FailFast

/-!
# How options are read

The options of a declaration are read entry by entry. Each of the thirteen fields has a name and a
form, and an entry is good if its key is one of the names and its value has the form of that field.
An entry whose value is null is good under any name.

* `OptionEntries.ofMapping_eq_error_iff` — the first entry that is not good is reported, and how
* `OptionEntries.exists_ofMapping_eq_ok_iff` — otherwise the options are read
* `OptionEntries.get?_of_foldlM` — what then stands in each field

The fields have values of four types. `OptionValue` puts them into one, so that a field can be read
(`OptionForm.read`) and filled (`OptionEntries.put`) without asking which one it is.
-/

namespace OrderedEnv

open Yaml
open Declaration (Field)

/-! ## Scalars -/

namespace Yaml.Value

/-- The value without its tags. -/
def untagged : Value → Value
  | .tagged _ value => value.untagged
  | value => value

/-- Without its tags, the value is no list and no mapping. -/
def IsScalar (value : Value) : Prop :=
  (∀ items, value.untagged ≠ .sequence items) ∧ ∀ entries, value.untagged ≠ .mapping entries

theorem isNull_iff : ∀ value : Value, value.isNull = true ↔ value.untagged = .null
  | .null => by simp [isNull, untagged]
  | .bool _ => by simp [isNull, untagged]
  | .number _ => by simp [isNull, untagged]
  | .string _ => by simp [isNull, untagged]
  | .sequence _ => by simp [isNull, untagged]
  | .mapping _ => by simp [isNull, untagged]
  | .tagged _ value => isNull_iff value

theorem exists_scalarText?_iff :
    ∀ value : Value, (∃ text, value.scalarText? = some text) ↔ value.IsScalar
  | .null => by simp [scalarText?, IsScalar, untagged]
  | .bool _ => by simp [scalarText?, IsScalar, untagged]
  | .number _ => by simp [scalarText?, IsScalar, untagged]
  | .string _ => by simp [scalarText?, IsScalar, untagged]
  | .sequence _ => by simp [scalarText?, IsScalar, untagged]
  | .mapping _ => by simp [scalarText?, IsScalar, untagged]
  | .tagged _ value => exists_scalarText?_iff value

theorem scalarText?_eq_none_iff (value : Value) : value.scalarText? = none ↔ ¬value.IsScalar := by
  rw [← exists_scalarText?_iff]
  cases value.scalarText? <;> simp

end Yaml.Value

/-! ## Values of one form -/

/-- What an option says. -/
inductive OptionValue where
  | text (text : String)
  | texts (texts : List String)
  | flag (flag : Bool)
  | mapping (entries : Mapping)

def OptionValue.form : OptionValue → OptionForm
  | .text _ => .text
  | .texts _ => .textList
  | .flag _ => .flag
  | .mapping _ => .mapping

/-- The words for a flag that is set, in small letters. -/
def trueWords : List String := ["true", "yes", "y", "t", "1"]

/-- The words for a flag that is not set, in small letters. -/
def falseWords : List String := ["false", "no", "n", "f", "0"]

/-- The value says this to who reads it in the form of what it says. -/
inductive Yaml.Value.Says : Value → OptionValue → Prop where
  | text {value : Value} {text : String} (h : value.scalarText? = some text) :
    Says value (.text text)
  | texts {items : List Value} {texts : List String}
    (h : List.Forall₂ (fun item text => item.scalarText? = some text) items texts) :
    Says (.sequence items) (.texts texts)
  | flag (flag : Bool) : Says (.bool flag) (.flag flag)
  | trueWord {word : String} (h : Text.asciiLower word ∈ trueWords) :
    Says (.string word) (.flag true)
  | falseWord {word : String} (h : Text.asciiLower word ∈ falseWords) :
    Says (.string word) (.flag false)
  | mapping (entries : Mapping) : Says (.mapping entries) (.mapping entries)

namespace OptionForm

/-- The value has the form. -/
def Fits : OptionForm → Value → Prop
  | .text, value => value.IsScalar
  | .textListItem, value => value.IsScalar
  | .textList, value => ∃ items, value = .sequence items ∧ ∀ item ∈ items, item.IsScalar
  | .flag, value => (∃ flag, value = .bool flag) ∨
      ∃ word, value = .string word ∧ Text.asciiLower word ∈ trueWords ++ falseWords
  | .mapping, value => ∃ entries, value = .mapping entries

/-- The value does not have the form. What is found amiss is the value itself, or the first item of
a list that is no scalar. -/
inductive Misfits : OptionForm → Value → OptionForm → Value → Prop where
  | text {value : Value} (h : ¬value.IsScalar) : Misfits .text value .text value
  | flag {value : Value} (h : ¬Fits .flag value) : Misfits .flag value .flag value
  | mapping {value : Value} (h : ¬Fits .mapping value) : Misfits .mapping value .mapping value
  | list {value : Value} (h : ∀ items, value ≠ .sequence items) :
    Misfits .textList value .textList value
  | item {items : List Value} {i : Nat} {item : Value}
    (h : IsFirstWithout Value.IsScalar items i item) :
    Misfits .textList (.sequence items) .textListItem item

/-- Reads a value in a form. -/
def read (form : OptionForm) (name : String) (value : Value) :
    Except DeclarationError OptionValue :=
  match form with
  | .text | .textListItem => (readText name .text value).map .text
  | .textList => (readTextList name value).map .texts
  | .flag => (readFlag name value).map .flag
  | .mapping => (readMapping name value).map .mapping

variable {name : String} {value : Value}

theorem readText_eq_ok_iff {form : OptionForm} {text : String} :
    readText name form value = .ok text ↔ value.scalarText? = some text := by
  unfold readText
  cases value.scalarText? <;> simp

theorem readText_eq_error_iff {form : OptionForm} {e : DeclarationError} :
    readText name form value = .error e ↔
      ¬value.IsScalar ∧ e = .invalidOption name form value.describe := by
  unfold readText
  rw [← value.scalarText?_eq_none_iff]
  cases value.scalarText? <;> simp [eq_comm]

theorem exists_readText_iff {form : OptionForm} :
    (∃ text, readText name form value = .ok text) ↔ value.IsScalar := by
  simp only [readText_eq_ok_iff, value.exists_scalarText?_iff]

theorem flagOfWord?_eq_some_iff {word : String} {flag : Bool} :
    flagOfWord? word = some flag ↔
      (flag = true ∧ word ∈ trueWords) ∨ (flag = false ∧ word ∈ falseWords) := by
  have hwords : word ∈ trueWords → word ∉ falseWords := by
    intro htrue hfalse
    simp only [trueWords, falseWords, List.mem_cons, List.not_mem_nil, or_false] at htrue hfalse
    rcases htrue with rfl | rfl | rfl | rfl | rfl <;> revert hfalse <;> decide
  show (if trueWords.contains word then _ else if falseWords.contains word then _ else _) = _ ↔ _
  simp only [List.contains_iff_mem]
  by_cases htrue : word ∈ trueWords
  · simp [htrue, hwords htrue, eq_comm]
  · by_cases hfalse : word ∈ falseWords
    · simp [htrue, hfalse, eq_comm]
    · simp [htrue, hfalse]

theorem readFlag_eq_ok_iff {flag : Bool} :
    readFlag name value = .ok flag ↔ value.Says (.flag flag) := by
  unfold readFlag
  constructor
  · intro h
    split at h
    · cases h
      exact .flag _
    · next word =>
      split at h
      · next hflag =>
        cases h
        rcases flagOfWord?_eq_some_iff.mp hflag with ⟨rfl, hword⟩ | ⟨rfl, hword⟩
        · exact .trueWord hword
        · exact .falseWord hword
      · cases h
    · cases h
  · intro h
    cases h with
    | flag => rfl
    | trueWord hword => simp only [flagOfWord?_eq_some_iff.mpr (.inl ⟨rfl, hword⟩)]
    | falseWord hword => simp only [flagOfWord?_eq_some_iff.mpr (.inr ⟨rfl, hword⟩)]

theorem exists_readFlag_iff : (∃ flag, readFlag name value = .ok flag) ↔ Fits .flag value := by
  simp only [readFlag_eq_ok_iff, Fits, List.mem_append]
  constructor
  · rintro ⟨flag, h⟩
    cases h with
    | flag => exact .inl ⟨flag, rfl⟩
    | trueWord hword => exact .inr ⟨_, rfl, .inl hword⟩
    | falseWord hword => exact .inr ⟨_, rfl, .inr hword⟩
  · rintro (⟨flag, rfl⟩ | ⟨word, rfl, hword | hword⟩)
    · exact ⟨flag, .flag flag⟩
    · exact ⟨true, .trueWord hword⟩
    · exact ⟨false, .falseWord hword⟩

theorem readFlag_eq_error_iff {e : DeclarationError} :
    readFlag name value = .error e ↔
      ¬Fits .flag value ∧ e = .invalidOption name .flag value.describe := by
  rw [← @exists_readFlag_iff name value]
  unfold readFlag
  split
  · simp
  · split <;> simp [eq_comm]
  · simp [eq_comm]

theorem readTextList_eq_ok_iff {texts : List String} :
    readTextList name value = .ok texts ↔ value.Says (.texts texts) := by
  unfold readTextList
  constructor
  · intro h
    split at h
    · exact .texts ((mapM_eq_ok_iff.mp h).imp fun _ _ => readText_eq_ok_iff.mp)
    · cases h
  · intro h
    cases h with
    | texts h => exact mapM_eq_ok_iff.mpr (h.imp fun _ _ => readText_eq_ok_iff.mpr)

theorem readTextList_eq_error_iff {e : DeclarationError} :
    readTextList name value = .error e ↔ ∃ expected found,
      Misfits .textList value expected found ∧ e = .invalidOption name expected found.describe := by
  unfold readTextList
  split
  · next items =>
    rw [mapM_eq_error_iff]
    simp only [exists_readText_iff, readText_eq_error_iff]
    constructor
    · rintro ⟨i, item, hitem, -, rfl⟩
      exact ⟨_, item, .item hitem, rfl⟩
    · rintro ⟨expected, found, hmisfits, rfl⟩
      cases hmisfits with
      | list h => exact absurd rfl (h items)
      | item h => exact ⟨_, found, h, h.not, rfl⟩
  · next hlist =>
    constructor
    · rintro ⟨⟩
      exact ⟨_, value, .list hlist, rfl⟩
    · rintro ⟨expected, found, hmisfits, rfl⟩
      cases hmisfits with
      | list h => rfl
      | item h => exact absurd rfl (hlist _)

theorem exists_readTextList_iff :
    (∃ texts, readTextList name value = .ok texts) ↔ Fits .textList value := by
  unfold readTextList
  split
  · next items =>
    rw [exists_mapM_eq_ok_iff]
    simp only [exists_readText_iff]
    constructor
    · intro h
      exact ⟨items, rfl, h⟩
    · rintro ⟨items', ⟨⟩, h⟩
      exact h
  · next hlist =>
    refine iff_of_false (by simp) ?_
    rintro ⟨items, rfl, -⟩
    exact hlist items rfl

theorem readMapping_eq_ok_iff {entries : Mapping} :
    readMapping name value = .ok entries ↔ value.Says (.mapping entries) := by
  unfold readMapping
  constructor
  · intro h
    split at h
    · cases h
      exact .mapping _
    · cases h
  · rintro ⟨⟩
    rfl

theorem exists_readMapping_iff :
    (∃ entries, readMapping name value = .ok entries) ↔ Fits .mapping value := by
  unfold readMapping
  split
  · simp [Fits]
  · next hmapping =>
    refine iff_of_false (by simp) ?_
    rintro ⟨entries, rfl⟩
    exact hmapping entries rfl

theorem readMapping_eq_error_iff {e : DeclarationError} :
    readMapping name value = .error e ↔
      ¬Fits .mapping value ∧ e = .invalidOption name .mapping value.describe := by
  rw [← @exists_readMapping_iff name value]
  unfold readMapping
  split <;> simp [eq_comm]

/-! ## Any form -/

theorem exists_read_eq_ok_iff {form : OptionForm} :
    (∃ v, form.read name value = .ok v) ↔ form.Fits value := by
  cases form with
  | text | textListItem => exact exists_map_eq_ok_iff.trans exists_readText_iff
  | textList => exact exists_map_eq_ok_iff.trans exists_readTextList_iff
  | flag => exact exists_map_eq_ok_iff.trans exists_readFlag_iff
  | mapping => exact exists_map_eq_ok_iff.trans exists_readMapping_iff

/-- A value of one kind that is read for what it says, put among the values of all kinds. -/
theorem map_eq_ok_iff_says {α : Type} {r : Except DeclarationError α} {wrap : α → OptionValue}
    {form : OptionForm} (hwrap : ∀ v : OptionValue, v.form = form ↔ ∃ a, wrap a = v)
    (hr : ∀ a, r = .ok a ↔ value.Says (wrap a)) {v : OptionValue} :
    r.map wrap = .ok v ↔ v.form = form ∧ value.Says v := by
  rw [map_eq_ok_iff, hwrap]
  constructor
  · rintro ⟨a, ha, rfl⟩
    exact ⟨⟨a, rfl⟩, (hr a).mp ha⟩
  · rintro ⟨⟨a, rfl⟩, hsays⟩
    exact ⟨a, (hr a).mpr hsays, rfl⟩

theorem read_eq_ok_iff {form : OptionForm} (hform : form ≠ .textListItem) {v : OptionValue} :
    form.read name value = .ok v ↔ v.form = form ∧ value.Says v := by
  cases form with
  | textListItem => exact absurd rfl hform
  | text =>
    refine map_eq_ok_iff_says (fun v => by cases v <;> simp [OptionValue.form]) fun text => ?_
    rw [readText_eq_ok_iff]
    constructor
    · exact .text
    · rintro ⟨h⟩
      exact h
  | textList =>
    exact map_eq_ok_iff_says (fun v => by cases v <;> simp [OptionValue.form])
      fun _ => readTextList_eq_ok_iff
  | flag =>
    exact map_eq_ok_iff_says (fun v => by cases v <;> simp [OptionValue.form])
      fun _ => readFlag_eq_ok_iff
  | mapping =>
    exact map_eq_ok_iff_says (fun v => by cases v <;> simp [OptionValue.form])
      fun _ => readMapping_eq_ok_iff

/-- Outside lists, what is found amiss is the value itself. -/
theorem misfits_iff {form : OptionForm} (hitem : form ≠ .textListItem) (hlist : form ≠ .textList)
    {expected : OptionForm} {found : Value} :
    form.Misfits value expected found ↔ ¬form.Fits value ∧ expected = form ∧ found = value := by
  constructor
  · intro h
    cases h with
    | text h | flag h | mapping h => exact ⟨h, rfl, rfl⟩
    | list | item => exact absurd rfl hlist
  · rintro ⟨h, rfl, rfl⟩
    cases expected with
    | text => exact .text h
    | flag => exact .flag h
    | mapping => exact .mapping h
    | textListItem => exact absurd rfl hitem
    | textList => exact absurd rfl hlist

theorem read_eq_error_iff {form : OptionForm} (hform : form ≠ .textListItem)
    {e : DeclarationError} :
    form.read name value = .error e ↔ ∃ expected found,
      form.Misfits value expected found ∧ e = .invalidOption name expected found.describe := by
  by_cases hlist : form = .textList
  · subst hlist
    exact map_eq_error_iff.trans readTextList_eq_error_iff
  · have hown : (∃ expected found,
        form.Misfits value expected found ∧ e = .invalidOption name expected found.describe) ↔
          ¬form.Fits value ∧ e = .invalidOption name form value.describe := by
      simp [misfits_iff hform hlist, and_assoc]
    rw [hown]
    cases form with
    | textListItem => exact absurd rfl hform
    | textList => exact absurd rfl hlist
    | text => exact map_eq_error_iff.trans readText_eq_error_iff
    | flag => exact map_eq_error_iff.trans readFlag_eq_error_iff
    | mapping => exact map_eq_error_iff.trans readMapping_eq_error_iff

end OptionForm

/-! ## Fields -/

/-- The form of the value of a field. -/
def Declaration.Field.form : Field → OptionForm
  | .title | .description | .summary | .category => .text
  | .valueOptions => .textList
  | .isRequired | .isExpand | .isDontChangeValue | .isTemplate | .isSensitive | .skipIfEmpty
  | .unset => .flag
  | .extra => .mapping

theorem Declaration.Field.form_ne (field : Field) : field.form ≠ .textListItem := by
  cases field <;> decide

theorem Declaration.Field.name_injective {field other : Field} (h : field.name = other.name) :
    field = other := by
  cases field <;> cases other <;> first | rfl | (revert h; decide)

namespace OptionEntries

/-- What stands in a field, none if it is left out. -/
def get? (o : OptionEntries) : Field → Option OptionValue
  | .title => o.title.map .text
  | .description => o.description.map .text
  | .summary => o.summary.map .text
  | .category => o.category.map .text
  | .valueOptions => o.valueOptions.map .texts
  | .isRequired => o.isRequired.map .flag
  | .isExpand => o.isExpand.map .flag
  | .isDontChangeValue => o.isDontChangeValue.map .flag
  | .isTemplate => o.isTemplate.map .flag
  | .isSensitive => o.isSensitive.map .flag
  | .skipIfEmpty => o.skipIfEmpty.map .flag
  | .unset => o.unset.map .flag
  | .extra => o.extra.map .mapping

/-- Fills a field with a value of its form. -/
def put (o : OptionEntries) : Field → OptionValue → OptionEntries
  | .title, .text t => { o with title := some t }
  | .description, .text t => { o with description := some t }
  | .summary, .text t => { o with summary := some t }
  | .category, .text t => { o with category := some t }
  | .valueOptions, .texts ts => { o with valueOptions := some ts }
  | .isRequired, .flag b => { o with isRequired := some b }
  | .isExpand, .flag b => { o with isExpand := some b }
  | .isDontChangeValue, .flag b => { o with isDontChangeValue := some b }
  | .isTemplate, .flag b => { o with isTemplate := some b }
  | .isSensitive, .flag b => { o with isSensitive := some b }
  | .skipIfEmpty, .flag b => { o with skipIfEmpty := some b }
  | .unset, .flag b => { o with unset := some b }
  | .extra, .mapping m => { o with extra := some m }
  | _, _ => o

theorem get?_put (o : OptionEntries) {field : Field} {v : OptionValue} (h : v.form = field.form)
    (other : Field) :
    (o.put field v).get? other = if other = field then some v else o.get? other := by
  cases field <;> cases v <;> first | (cases h; done) | (cases other <;> rfl)

/-- An option is set by reading its value in the form of its field. -/
theorem set_name (o : OptionEntries) (field : Field) (value : Value) :
    o.set field.name value = (field.form.read field.name value).map (o.put field) := by
  cases field <;> simp only [Field.name, Field.form, OptionForm.read, set] <;>
    first
    | (cases readText _ _ value <;> rfl)
    | (cases readFlag _ value <;> rfl)
    | (cases readTextList _ value <;> rfl)
    | (cases readMapping _ value <;> rfl)

theorem set_of_unknown (o : OptionEntries) {name : String} (h : ∀ field : Field, field.name ≠ name)
    (value : Value) : o.set name value = .error (.unsupportedOption name) := by
  have hall : ∀ field ∈ Field.all, field.name ≠ name := fun field _ => h field
  unfold set
  split <;> first | rfl | simp [Field.all, Field.name] at hall

/-! ## Entries -/

/-- The entry may stand among options. -/
def Accepts (entry : Value × Value) : Prop :=
  ∃ name, entry.1 = .string name ∧
    (entry.2.isNull = false → ∃ field : Field, field.name = name ∧ field.form.Fits entry.2)

/-- What is reported of an entry that may not stand among options. -/
inductive Fault : Value × Value → DeclarationError → Prop where
  | key {key value : Value} (h : ∀ name, key ≠ .string name) :
    Fault (key, value) (.unsupportedOption key.describe)
  | name {name : String} {value : Value} (hnull : value.isNull = false)
    (h : ∀ field : Field, field.name ≠ name) : Fault (.string name, value) (.unsupportedOption name)
  | value {field : Field} {value found : Value} {expected : OptionForm}
    (hnull : value.isNull = false) (h : field.form.Misfits value expected found) :
    Fault (.string field.name, value) (.invalidOption field.name expected found.describe)

theorem add_string (o : OptionEntries) (name : String) (value : Value) :
    o.add (.string name, value) = if value.isNull then .ok o else o.set name value := rfl

theorem add_of_key (o : OptionEntries) {key : Value} (h : ∀ name, key ≠ .string name)
    (value : Value) : o.add (key, value) = .error (.unsupportedOption key.describe) := by
  cases key with
  | string name => exact absurd rfl (h name)
  | _ => rfl

theorem string_or_not (key : Value) :
    (∃ name, key = .string name) ∨ ∀ name, key ≠ .string name := by
  cases key <;> simp

theorem name_or_not (name : String) :
    (∃ field : Field, field.name = name) ∨ ∀ field : Field, field.name ≠ name := by
  by_cases h : ∃ field : Field, field.name = name
  · exact .inl h
  · exact .inr fun field hname => h ⟨field, hname⟩

theorem exists_add_eq_ok_iff (o : OptionEntries) (entry : Value × Value) :
    (∃ o', o.add entry = .ok o') ↔ Accepts entry := by
  obtain ⟨key, value⟩ := entry
  unfold Accepts
  rcases string_or_not key with ⟨name, rfl⟩ | hkey
  · rw [add_string]
    cases hnull : value.isNull with
    | true => simp
    | false =>
      simp only [Bool.false_eq_true, if_false, Value.string.injEq, forall_const, exists_eq_left']
      rcases name_or_not name with ⟨field, rfl⟩ | hname
      · rw [set_name, exists_map_eq_ok_iff, OptionForm.exists_read_eq_ok_iff]
        constructor
        · intro h
          exact ⟨field, rfl, h⟩
        · rintro ⟨other, hname, h⟩
          rwa [Field.name_injective hname] at h
      · rw [set_of_unknown o hname]
        refine iff_of_false (by simp) ?_
        rintro ⟨field, hfield, -⟩
        exact hname field hfield
  · rw [add_of_key o hkey]
    refine iff_of_false (by simp) ?_
    rintro ⟨name, hname, -⟩
    exact hkey name hname

theorem add_eq_error_iff (o : OptionEntries) (entry : Value × Value) (e : DeclarationError) :
    o.add entry = .error e ↔ Fault entry e := by
  obtain ⟨key, value⟩ := entry
  rcases string_or_not key with ⟨name, rfl⟩ | hkey
  · rw [add_string]
    cases hnull : value.isNull with
    | true =>
      refine iff_of_false (by simp) ?_
      intro h
      cases h <;> simp_all
    | false =>
      rw [if_neg (by decide)]
      rcases name_or_not name with ⟨field, rfl⟩ | hname
      · rw [set_name, map_eq_error_iff, OptionForm.read_eq_error_iff field.form_ne]
        constructor
        · rintro ⟨expected, found, h, rfl⟩
          exact .value hnull h
        · intro h
          generalize hname : Value.string field.name = key at h
          cases h with
          | key h => exact absurd hname.symm (h _)
          | name _ h => exact absurd (Value.string.inj hname) (h field)
          | value _ h =>
            obtain rfl := Field.name_injective (Value.string.inj hname)
            exact ⟨_, _, h, rfl⟩
      · rw [set_of_unknown o hname]
        constructor
        · rintro ⟨⟩
          exact .name hnull hname
        · intro h
          cases h with
          | key h => exact absurd rfl (h _)
          | name => rfl
          | value => exact absurd rfl (hname _)
  · rw [add_of_key o hkey]
    constructor
    · rintro ⟨⟩
      exact .key hkey
    · intro h
      cases h with
      | key => rfl
      | name => exact absurd rfl (hkey _)
      | value => exact absurd rfl (hkey _)

/-! ## All entries -/

/-- **The options are read if every entry is good.** -/
theorem exists_ofMapping_eq_ok_iff {entries : Mapping} :
    (∃ o, ofMapping entries = .ok o) ↔ ∀ entry ∈ entries, Accepts entry :=
  exists_foldlM_eq_ok_iff exists_add_eq_ok_iff

/-- **Otherwise the first entry that is not good is reported.** -/
theorem ofMapping_eq_error_iff {entries : Mapping} {e : DeclarationError} :
    ofMapping entries = .error e ↔
      ∃ i entry, IsFirstWithout Accepts entries i entry ∧ Fault entry e :=
  foldlM_eq_error_iff exists_add_eq_ok_iff add_eq_error_iff

/-- The entries give a field this value. A null gives nothing. -/
structure Given (entries : Mapping) (field : Field) (value : Value) : Prop where
  mem : (.string field.name, value) ∈ entries
  isNull : value.isNull = false

theorem given_cons_iff {key value value' : Value} {rest : Mapping} {field : Field} :
    Given ((key, value) :: rest) field value' ↔
      (key = .string field.name ∧ value = value' ∧ value.isNull = false) ∨
        Given rest field value' := by
  constructor
  · rintro ⟨hmem, hnull⟩
    rcases List.mem_cons.mp hmem with h | h
    · obtain ⟨rfl, rfl⟩ := Prod.mk.inj h
      exact .inl ⟨rfl, rfl, hnull⟩
    · exact .inr ⟨h, hnull⟩
  · rintro (⟨rfl, rfl, hnull⟩ | ⟨hmem, hnull⟩)
    · exact ⟨List.mem_cons_self, hnull⟩
    · exact ⟨List.mem_cons_of_mem _ hmem, hnull⟩

theorem given_append_iff {entries rest : Mapping} {field : Field} {value : Value} :
    Given (entries ++ rest) field value ↔ Given entries field value ∨ Given rest field value := by
  constructor
  · rintro ⟨hmem, hnull⟩
    exact (List.mem_append.mp hmem).imp (⟨·, hnull⟩) (⟨·, hnull⟩)
  · rintro (⟨hmem, hnull⟩ | ⟨hmem, hnull⟩)
    · exact ⟨List.mem_append_left _ hmem, hnull⟩
    · exact ⟨List.mem_append_right _ hmem, hnull⟩

/-- One entry fills the field that it gives a value, and no other. -/
theorem get?_of_add {o o' : OptionEntries} {key value : Value} (h : o.add (key, value) = .ok o')
    (field : Field) :
    (key = .string field.name → value.isNull = false →
      ∃ v, v.form = field.form ∧ value.Says v ∧ o'.get? field = some v) ∧
    (¬(key = .string field.name ∧ value.isNull = false) → o'.get? field = o.get? field) := by
  obtain ⟨name, hkey, haccepts⟩ := (exists_add_eq_ok_iff o _).mp ⟨o', h⟩
  obtain rfl : key = .string name := hkey
  rw [add_string] at h
  cases hnull : value.isNull with
  | true =>
    rw [hnull, if_pos rfl] at h
    obtain rfl := Except.ok.inj h
    exact ⟨fun _ hfalse => absurd hfalse (by decide), fun _ => rfl⟩
  | false =>
    obtain ⟨other, rfl, -⟩ := haccepts hnull
    rw [hnull, if_neg (by decide), set_name, map_eq_ok_iff] at h
    obtain ⟨v, hread, rfl⟩ := h
    obtain ⟨hform, hsays⟩ := (OptionForm.read_eq_ok_iff other.form_ne).mp hread
    rw [get?_put o hform]
    constructor
    · intro hname _
      obtain rfl := Field.name_injective (Value.string.inj hname)
      exact ⟨v, hform, hsays, if_pos rfl⟩
    · intro hne
      refine if_neg fun heq => hne ⟨?_, rfl⟩
      rw [heq]

/-- What stands in a field after some entries that give it a value at most once: that value, or what
stood there before. -/
theorem get?_of_foldlM {entries : Mapping} {o o' : OptionEntries}
    (h : entries.foldlM add o = .ok o') (hkeys : (entries.map Prod.fst).Nodup) (field : Field) :
    (∀ value, Given entries field value →
      ∃ v, v.form = field.form ∧ value.Says v ∧ o'.get? field = some v) ∧
    ((∀ value, ¬Given entries field value) → o'.get? field = o.get? field) := by
  induction entries generalizing o with
  | nil =>
    obtain rfl := Except.ok.inj h
    refine ⟨fun value hgiven => ?_, fun _ => rfl⟩
    have hmem := hgiven.mem
    simp at hmem
  | cons entry rest ih =>
    obtain ⟨key, value⟩ := entry
    rw [List.foldlM_cons] at h
    obtain ⟨hnotin, hkeys⟩ := List.nodup_cons.mp hkeys
    cases hadd : o.add (key, value) with
    | error e =>
      rw [hadd] at h
      cases h
    | ok between =>
      rw [hadd] at h
      obtain ⟨hhere, hother⟩ := get?_of_add hadd field
      obtain ⟨hgiven, hnone⟩ := ih h hkeys
      simp only [given_cons_iff]
      constructor
      · rintro value' (⟨rfl, rfl, hnull⟩ | hrest)
        · -- no later entry has this key, so the field keeps what it gets here
          have hlast : ∀ value', ¬Given rest field value' := fun value' hrest =>
            hnotin (List.mem_map.mpr ⟨_, hrest.mem, rfl⟩)
          rw [hnone hlast]
          exact hhere rfl hnull
        · exact hgiven value' hrest
      · intro hno
        rw [hnone fun value' hrest => hno value' (.inr hrest)]
        exact hother fun hthis => hno value (.inl ⟨hthis.1, rfl, hthis.2⟩)

end OptionEntries

end OrderedEnv
