import OrderedEnv.Proofs.FailFast
import OrderedEnv.Store

/-!
# Raw declarations are read alike everywhere

Raw declarations come to the evaluator as a list, and to a store as the text of its file. Both stop
at the first one that is malformed and report it by its index. Here it is shown that they report the
same one for the same cause, and otherwise go on with the same declarations.

What a text lists is the business of its format. For YAML this module adds which documents list no
declarations at all: those where `envs` is left out or null, and those without any text.
-/

namespace OrderedEnv

/-! ## The first malformed declaration -/

/-- The raw declaration at the index is malformed, and it is the first one that is. -/
def FirstMalformed (raws : List RawDeclaration) (index : Nat) (cause : DeclarationError) : Prop :=
  ∃ raw, IsFirstWithout (fun raw => ∃ d, Declaration.ofRaw raw = .ok d) raws index raw ∧
    Declaration.ofRaw raw = .error cause

/-- The declarations that raw ones stand for, one for each, in order. -/
def Normalizes (raws : List RawDeclaration) (declarations : List Declaration) : Prop :=
  List.Forall₂ (fun raw d => Declaration.ofRaw raw = .ok d) raws declarations

variable {raws : List RawDeclaration} {declarations : List Declaration} {index : Nat}
  {cause : DeclarationError}

theorem normalizeFrom_eq_error_iff {start : Nat} :
    normalizeFrom start raws = .error (index, cause) ↔
      ∃ offset, index = start + offset ∧ FirstMalformed raws offset cause := by
  unfold FirstMalformed
  induction raws generalizing start with
  | nil =>
    refine iff_of_false (fun h => nomatch h) ?_
    rintro ⟨offset, -, raw, hraw, -⟩
    exact hraw.not_nil
  | cons raw rest ih =>
    simp only [normalizeFrom, IsFirstWithout.cons_iff]
    cases hraw : Declaration.ofRaw raw with
    | error cause' =>
      constructor
      · intro h
        obtain ⟨rfl, rfl⟩ : start = index ∧ cause' = cause := by simpa using h
        exact ⟨0, rfl, raw, .inl ⟨rfl, rfl, by simp⟩, hraw⟩
      · rintro ⟨offset, rfl, other, ⟨rfl, rfl, -⟩ | ⟨⟨d, hd⟩, -⟩, hcause⟩
        · rw [hraw] at hcause
          simpa using hcause
        · simp at hd
    | ok d =>
      have hrest : (normalizeFrom (start + 1) rest).map (d :: ·) = .error (index, cause) ↔
          normalizeFrom (start + 1) rest = .error (index, cause) := by
        cases normalizeFrom (start + 1) rest <;> simp [Except.map]
      rw [hrest, ih]
      constructor
      · rintro ⟨offset, rfl, other, hother, hcause⟩
        exact ⟨offset + 1, by omega, other, .inr ⟨⟨d, rfl⟩, offset, rfl, hother⟩, hcause⟩
      · rintro ⟨offset, rfl, other, ⟨-, -, hno⟩ | ⟨-, j, rfl, hother⟩, hcause⟩
        · exact absurd ⟨d, rfl⟩ hno
        · exact ⟨j, by omega, other, hother, hcause⟩

theorem normalize_eq_error_iff :
    normalize raws = .error (index, cause) ↔ FirstMalformed raws index cause := by
  rw [normalize, normalizeFrom_eq_error_iff]
  simp

theorem normalizeFrom_eq_ok_iff {start : Nat} :
    normalizeFrom start raws = .ok declarations ↔ Normalizes raws declarations := by
  unfold Normalizes
  induction raws generalizing start declarations with
  | nil => simp [normalizeFrom, eq_comm]
  | cons raw rest ih =>
    rw [normalizeFrom, List.forall₂_cons_left_iff]
    cases Declaration.ofRaw raw with
    | error cause => simp
    | ok d =>
      have hrest (ds : List Declaration) :
          List.Forall₂ (fun raw d => Declaration.ofRaw raw = .ok d) rest ds ↔
            normalizeFrom (start + 1) rest = .ok ds := ih.symm
      simp only [hrest]
      cases normalizeFrom (start + 1) rest <;> simp [Except.map, eq_comm]

theorem normalize_eq_ok_iff : normalize raws = .ok declarations ↔ Normalizes raws declarations :=
  normalizeFrom_eq_ok_iff

/-- One of the two is the case. -/
theorem firstMalformed_or_normalizes (raws : List RawDeclaration) :
    (∃ index cause, FirstMalformed raws index cause) ∨ ∃ ds, Normalizes raws ds := by
  cases h : normalize raws with
  | error fault => exact .inl ⟨fault.1, fault.2, normalize_eq_error_iff.mp h⟩
  | ok ds => exact .inr ⟨ds, normalize_eq_ok_iff.mp h⟩

/-! ## Evaluating -/

theorem evaluate_ne_malformed (ds : List Declaration) (source : Source) :
    evaluate ds source ≠ .error (.malformed index cause) := by
  unfold evaluate
  cases source.snapshot <;> simp

theorem evaluateRaw_eq_malformed_iff {source : Source} :
    evaluateRaw raws source = .error (.malformed index cause) ↔
      FirstMalformed raws index cause := by
  rw [← normalize_eq_error_iff, evaluateRaw]
  cases normalize raws with
  | error fault => simp [Prod.ext_iff]
  | ok ds => exact iff_of_false (evaluate_ne_malformed ds source) (fun h => nomatch h)

theorem evaluateRaw_of_normalizes (h : Normalizes raws declarations) (source : Source) :
    evaluateRaw raws source = evaluate declarations source := by
  rw [evaluateRaw, normalize_eq_ok_iff.mpr h]

/-! ## Reading a store -/

namespace Store

variable {format : StoreFormat} {text : String}

theorem parse_eq_malformed_iff (h : format.read text = .ok raws) :
    parse format text = .error (.malformedDeclaration index cause) ↔
      FirstMalformed raws index cause := by
  rw [← normalize_eq_error_iff, parse, h]
  cases hn : normalize raws with
  | error fault => simp [hn, Prod.ext_iff]
  | ok ds => simp [hn]

theorem parse_eq_ok_iff_normalizes (h : format.read text = .ok raws) :
    parse format text = .ok declarations ↔ Normalizes raws declarations := by
  rw [← normalize_eq_ok_iff, parse, h]
  cases hn : normalize raws <;> simp [hn]

/-! ## Documents without declarations -/

open Yaml

/-- The node is a scalar that is written out, and this is its text. -/
def IsText (node : Node) (text : String) : Prop := ∃ tag plain, node = .scalar tag text plain

/-- Entries of a document that list no declarations: `envs` is not among them, or it is null. -/
inductive ListNone : List (Node × Node) → Prop where
  | absent {entries : List (Node × Node)}
    (h : ∀ entry ∈ entries, ∃ name, IsText entry.1 name ∧ name ≠ declarationsKey) :
    ListNone entries
  | null {before after : List (Node × Node)} {key : Node} {text : String}
    (hbefore : ∀ entry ∈ before, ∃ name, IsText entry.1 name ∧ name ≠ declarationsKey)
    (hkey : IsText key declarationsKey) (hnull : text = "" ∨ text ∈ Scalar.nullWords)
    (hafter : ∀ entry ∈ after, ∃ name, IsText entry.1 name ∧ name ≠ declarationsKey) :
    ListNone (before ++ (key, .scalar none text true) :: after)

theorem readEntries_append_of_other (d : Document) (found : Option (List RawDeclaration))
    {before : List (Node × Node)}
    (h : ∀ entry ∈ before, ∃ name, IsText entry.1 name ∧ name ≠ declarationsKey)
    (after : List (Node × Node)) :
    readEntries d found (before ++ after) = readEntries d found after := by
  induction before with
  | nil => rfl
  | cons entry rest ih =>
    obtain ⟨⟨name, ⟨tag, plain, hkey⟩, hne⟩, hrest⟩ := List.forall_mem_cons.mp h
    obtain ⟨key, node⟩ := entry
    obtain rfl : key = .scalar tag name plain := hkey
    rw [← ih hrest]
    simp [readEntries, Document.follow, hne]

theorem readEntries_of_other (d : Document) (found : Option (List RawDeclaration))
    {entries : List (Node × Node)}
    (h : ∀ entry ∈ entries, ∃ name, IsText entry.1 name ∧ name ≠ declarationsKey) :
    readEntries d found entries = pure (found.getD []) := by
  have happend := readEntries_append_of_other d found h []
  rwa [List.append_nil] at happend

theorem rawDeclarations_null (d : Document) (h : text = "" ∨ text ∈ Scalar.nullWords) :
    rawDeclarations d (.scalar none text true) = pure [] := by
  have habsent : (text.isEmpty || Scalar.nullWords.contains text) = true := by
    rw [Bool.or_eq_true, String.isEmpty_iff, List.contains_iff_mem]
    exact h
  simp only [rawDeclarations, Document.follow, isAbsent, pure_bind, habsent]
  rfl

theorem readEntries_of_listNone (d : Document) {entries : List (Node × Node)}
    (h : ListNone entries) : readEntries d none entries = pure [] := by
  cases h with
  | absent h => exact readEntries_of_other d none h
  | null hbefore hkey hnull hafter =>
    obtain ⟨tag, plain, rfl⟩ := hkey
    rw [readEntries_append_of_other d none hbefore]
    simp only [readEntries, Document.follow, pure_bind, if_true, Option.isSome_none,
      Bool.false_eq_true, if_false, rawDeclarations_null d hnull]
    exact readEntries_of_other d (some []) hafter

/-- A text without declarations is read as the empty list. -/
theorem ofYaml_eq_nil
    (h : Text.isBlank text = true ∨ ∃ d tag entries, Document.ofText text = .ok d ∧
      d.root = .mapping tag entries ∧ ListNone entries) : ofYaml text = .ok [] := by
  unfold ofYaml
  by_cases hblank : Text.isBlank text = true
  · rw [if_pos hblank]
    rfl
  · rw [if_neg hblank]
    obtain ⟨d, tag, entries, hd, hroot, hnone⟩ := h.resolve_left hblank
    simp only [hd, bind, Except.bind, hroot, readEntries_of_listNone d hnone]
    rfl

end Store

/-! ## Failing fast -/

/--
**Evaluating raw declarations and reading them from a store fail alike, and fail fast.**

Evaluation reports the first malformed declaration whatever its source does. If there is none, the
raw declarations stand for a list of declarations, and that list is evaluated. A store whose text
lists the raw declarations is read with the same fault or with the same declarations. In YAML a text
without declarations lists none.
-/
theorem evaluateRaw_and_parse_fail_fast (raws : List RawDeclaration) (source : Source) :
    (∀ index cause, evaluateRaw raws source = .error (.malformed index cause) ↔
      FirstMalformed raws index cause) ∧
    ((¬∃ index cause, FirstMalformed raws index cause) →
      ∃ ds, Normalizes raws ds ∧ ds.length = raws.length ∧
        evaluateRaw raws source = evaluate ds source ∧
        ∀ (format : StoreFormat) (text : String), format.read text = .ok raws →
          Store.parse format text = .ok ds) ∧
    (∀ (format : StoreFormat) (text : String), format.read text = .ok raws →
      ∀ index cause, Store.parse format text = .error (.malformedDeclaration index cause) ↔
        evaluateRaw raws source = .error (.malformed index cause)) ∧
    ∀ text, (Text.isBlank text = true ∨ ∃ d tag entries, Yaml.Document.ofText text = .ok d ∧
        d.root = .mapping tag entries ∧ Store.ListNone entries) →
      StoreFormat.yaml.read text = .ok [] := by
  refine ⟨fun _ _ => evaluateRaw_eq_malformed_iff, ?_, ?_, fun _ => Store.ofYaml_eq_nil⟩
  · intro hnone
    obtain ⟨ds, hds⟩ := (firstMalformed_or_normalizes raws).resolve_left hnone
    refine ⟨ds, hds, hds.length_eq.symm, evaluateRaw_of_normalizes hds source, ?_⟩
    exact fun _ _ h => (Store.parse_eq_ok_iff_normalizes h).mpr hds
  · intro format text h index cause
    rw [Store.parse_eq_malformed_iff h, evaluateRaw_eq_malformed_iff]

/-- The second of three raw declarations has no variable, and the third has none either. The source
cannot be read, but that is not what is reported. The first one by itself is read. -/
theorem evaluateRaw_and_parse_fail_fast_opts :
    let host : RawDeclaration := [(.string "HOST", .string "example.com")]
    let raws : List RawDeclaration := [host, [(.string "opts", .mapping [])], []]
    let unreadable : Source := .process [(⟨#[0xFF]⟩, "x".toUTF8)]
    let format : StoreFormat :=
      { write? := fun _ => none
        read := fun text =>
          if text = "envs:\n- HOST: example.com\n- opts: \x7b\x7d\n- \x7b\x7d\n" then .ok raws
          else if text = "envs:\n- HOST: example.com\n" then .ok [host]
          else .error .wrongKind }
    FirstMalformed raws 1 (.missingKey ["opts"]) ∧
      evaluateRaw raws unreadable = .error (.malformed 1 (.missingKey ["opts"])) ∧
      Store.parse format "envs:\n- HOST: example.com\n- opts: \x7b\x7d\n- \x7b\x7d\n" =
        .error (.malformedDeclaration 1 (.missingKey ["opts"])) ∧
      Store.parse format "envs:\n- HOST: example.com\n" =
        .ok [{ key := "HOST", value := "example.com" }] ∧
      StoreFormat.yaml.read "\n" = .ok [] := by
  intro host raws unreadable format
  have hfirst : FirstMalformed raws 1 (.missingKey ["opts"]) := by
    refine ⟨_, ⟨rfl, ?_, ?_⟩, rfl⟩
    · rintro ⟨d, hd⟩
      cases hd
    · intro j raw hj hraw
      obtain rfl : j = 0 := by omega
      obtain rfl : host = raw := Option.some.inj hraw
      exact ⟨_, rfl⟩
  have hhost : Normalizes [host] [{ key := "HOST", value := "example.com" }] := .cons rfl .nil
  obtain ⟨hevaluate, -, hparse, hblank⟩ := evaluateRaw_and_parse_fail_fast raws unreadable
  obtain ⟨-, hread, -, -⟩ := evaluateRaw_and_parse_fail_fast [host] unreadable
  have hreported := (hevaluate 1 _).mpr hfirst
  obtain ⟨ds, hds, -, -, hstore⟩ := hread (by
    rintro ⟨index, cause, hmalformed⟩
    rw [← normalize_eq_error_iff, normalize_eq_ok_iff.mpr hhost] at hmalformed
    cases hmalformed)
  have hsame : Except.ok ds = Except.ok _ :=
    (normalize_eq_ok_iff.mpr hds).symm.trans (normalize_eq_ok_iff.mpr hhost)
  obtain rfl := Except.ok.inj hsame
  exact ⟨hfirst, hreported, (hparse format _ (if_pos rfl) 1 _).mpr hreported,
    hstore format _ rfl, hblank "\n" (.inl (by decide))⟩

end OrderedEnv
