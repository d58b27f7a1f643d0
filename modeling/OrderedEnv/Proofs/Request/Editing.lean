import OrderedEnv.Proofs.Store.Saving
import OrderedEnv.Request.Perform

/-!
# Stores that are changed command by command

Two commands add a declaration to a store: `add` and `unset`. Here they are carried out one after
another, from a place where no store is (`Edit.Runs`), and what is asked is whether the store that
they leave behind can be loaded.

Each command first loads what the last one left. So if all of them succeed, every store on the way
but the last one could be loaded, and it depends on the last declaration alone whether the last one
can be, too.
-/

namespace OrderedEnv

variable {format : StoreFormat} {path : Path} {machine machine' before after : Machine}

/-! ## Commands -/

/-- A command that adds a declaration. -/
inductive Edit where
  | add (request : AddRequest) (tool : Bool)
  | unset (key : String)

/-- The value of a new declaration on a machine, unless it is no text. -/
def ValueOrigin.value? (machine : Machine) : ValueOrigin → Option String
  | .given value => some value
  | .file path => (Disk.textOf (machine.files.read path)).toOption
  | .input =>
    match machine.input with
    | .pipe content => String.fromUTF8? content
    | .terminal _ | .nothing => some ""

namespace Edit

/-- The variable of the declaration. -/
def key : Edit → String
  | .add request _ => request.key
  | .unset key => key

/-- The declaration that the command adds on a machine. -/
def declaration? (machine : Machine) : Edit → Option Declaration
  | .add request _ =>
    (request.origin.value? machine).map fun value =>
      { key := request.key, value, options := request.options }
  | .unset key => some (.remove key)

/-- Carries out the command. -/
def perform (format : StoreFormat) (path : Path) : Edit → MachineStep RequestError Unit
  | .add request tool => Request.performAdd format path request tool
  | .unset key => Request.performUnset format path key

/-- Commands are carried out one after another, and each of them succeeds. Between two commands
everything may change but what is found at the path of the store. -/
inductive Runs (format : StoreFormat) (path : Path) (start : Machine) :
    List Edit → Machine → Prop
  | nil : Runs format path start [] start
  | snoc {edits : List Edit} {edit : Edit} {between machine after : Machine}
      (runs : Runs format path start edits between)
      (lookup_eq : machine.files.lookup path = between.files.lookup path)
      (yields : Yields (edit.perform format path) machine () after) :
      Runs format path start (edits ++ [edit]) after

end Edit

/-! ## What a command does -/

theorem of_yields_resolveValue {origin : ValueOrigin} {value : String}
    (h : Yields (Request.resolveValue origin : MachineStep RequestError String) machine value
      machine') :
    origin.value? machine = some value ∧ machine'.files = machine.files := by
  cases origin with
  | given text =>
    obtain ⟨rfl, rfl⟩ := yields_pure.mp h
    exact ⟨rfl, rfl⟩
  | file path =>
    obtain ⟨found, between, hread, h⟩ := yields_bind.mp h
    obtain ⟨rfl, rfl⟩ := yields_readText.mp hread
    split at h
    · exact absurd h (by simp)
    · next text htext =>
      obtain ⟨rfl, rfl⟩ := yields_pure.mp h
      exact ⟨congrArg Except.toOption htext, rfl⟩
  | input =>
    obtain ⟨found, between, hpiped, hrest⟩ := yields_bind.mp h
    unfold ValueOrigin.value?
    rcases of_yields_pipedInput hpiped with ⟨content, hinput, -, rfl, rfl⟩ | ⟨hnone, rfl, rfl⟩
    · rw [hinput]
      simp only at hrest
      split at hrest
      · exact absurd hrest (by simp)
      · next text htext =>
        obtain ⟨rfl, rfl⟩ := yields_pure.mp hrest
        exact ⟨htext, rfl⟩
    · obtain ⟨rfl, rfl⟩ := yields_pure.mp hrest
      refine ⟨?_, rfl⟩
      cases hinput : between.input with
      | pipe content =>
        -- nothing waits in the pipe, and the empty text is that of no bytes
        obtain rfl : content = .empty :=
          ByteArray.size_eq_zero_iff.mp (by simpa [ByteArray.isEmpty] using hnone content hinput)
        exact Text.fromUTF8?_toUTF8 ""
      | terminal typed => rfl
      | nothing => rfl

/-- The end of both commands: a declaration is added, the store is saved, and success reported. -/
theorem of_yields_keep {store : Store} {d : Declaration} {policy : Store.Policy} {task : StoreTask}
    (report : Store.Added → String)
    (h : Yields (do
      let (done, store) ← Request.onStore task (store.add d policy)
      Request.onStore .save (store.save format)
      Request.succeed (report done) : MachineStep RequestError Unit) machine () machine') :
    ∃ done store', store.add d policy = .ok (done, store') ∧
      Store.Holds format store.path machine'.files store'.declarations := by
  obtain ⟨⟨done, store'⟩, between, hadd, h⟩ := yields_bind.mp h
  obtain ⟨hadded, rfl⟩ := yields_liftExcept.mp (yields_adapt.mp hadd)
  obtain ⟨_, saved, hsave, h⟩ := yields_bind.mp h
  have hholds := (Store.yields_save_iff.mp (yields_adapt.mp hsave)).holds
  obtain rfl := yields_print.mp h
  obtain ⟨hpath, -⟩ := Store.mem_of_add hadded
  exact ⟨done, store', hadded, hpath ▸ hholds⟩

/-- **The parts of a successful `unset`.** -/
theorem of_yields_performUnset {key : String}
    (h : Yields (Request.performUnset format path key) machine () machine') :
    key ≠ "" ∧ ∃ store done store', Store.Opened format path machine.files store ∧
      store.add (.remove key) .append = .ok (done, store') ∧
      Store.Holds format path machine'.files store'.declarations := by
  unfold Request.performUnset at h
  split at h
  · exact absurd (yields_bind.mp h) (by simp)
  · next hkey =>
    obtain ⟨store, loaded, hload, h⟩ := yields_bind.mp h
    have hopened := Store.opened_of_yields_loadOrInit (yields_adapt.mp hload)
    obtain ⟨done, store', hadded, hholds⟩ := of_yields_keep (fun _ => "Unset " ++ key) h
    refine ⟨?_, store, done, store', hopened, hadded, hopened.path_eq ▸ hholds⟩
    simpa using hkey

namespace Edit

theorem of_declaration? {edit : Edit} {d : Declaration} (h : edit.declaration? machine = some d) :
    d.key = edit.key ∧ d.info = {} := by
  cases edit with
  | add request tool =>
    obtain ⟨value, -, rfl⟩ := Option.map_eq_some_iff.mp h
    exact ⟨rfl, rfl⟩
  | unset key =>
    obtain rfl := Option.some.inj h
    exact ⟨rfl, rfl⟩

/-- **What a command does that succeeds.** It takes the store that is found, or an empty one where
nothing is, and keeps it with one declaration more. -/
theorem of_yields_perform {edit : Edit}
    (h : Yields (edit.perform format path) machine () machine') :
    ∃ d store declarations, edit.declaration? machine = some d ∧ d.key ≠ "" ∧
      Store.Opened format path machine.files store ∧
      d ∈ declarations ∧ (∀ e ∈ declarations, e = d ∨ e ∈ store.declarations) ∧
      Store.Holds format path machine'.files declarations := by
  cases edit with
  | add request tool =>
    change Yields (Request.performAdd format path request tool) machine () machine' at h
    unfold Request.performAdd at h
    split at h
    · exact absurd (yields_bind.mp h) (by simp)
    · next hkey =>
      obtain ⟨value, resolved, hresolve, h⟩ := yields_bind.mp h
      obtain ⟨hvalue, hfiles⟩ := of_yields_resolveValue hresolve
      obtain ⟨store, loaded, hload, h⟩ := yields_bind.mp h
      have hopened := Store.opened_of_yields_loadOrInit (yields_adapt.mp hload)
      obtain ⟨environment, _, -, h⟩ := yields_bind.mp h
      obtain ⟨limits, _, -, h⟩ := yields_bind.mp h
      split at h
      · exact absurd (yields_bind.mp h) (by simp)
      · obtain ⟨policy, _, -, h⟩ := yields_bind.mp h
        obtain ⟨done, store', hadded, hholds⟩ :=
          of_yields_keep (Request.addedReport request.key) h
        obtain ⟨-, hmem, hsub⟩ := Store.mem_of_add hadded
        -- to take a value from a pipe leaves the files alone, so the store is the one found at first
        refine ⟨_, store, store'.declarations, congrArg (Option.map _) hvalue, ?_,
          hfiles ▸ hopened, hmem, hsub, hopened.path_eq ▸ hholds⟩
        simpa using hkey
  | unset key =>
    obtain ⟨hkey, store, done, store', hopened, hadded, hholds⟩ := of_yields_performUnset h
    obtain ⟨-, hmem, hsub⟩ := Store.mem_of_add hadded
    exact ⟨_, store, store'.declarations, rfl, hkey, hopened, hmem, hsub, hholds⟩

/-! ## Runs -/

/-- What commands leave at the path of a store: nothing, or declarations that have keys and no
descriptions. -/
inductive Keeps (format : StoreFormat) (path : Path) (files : FileSystem) : Prop
  | missing (h : (files.lookup path).toBool = false)
  | holds {declarations : List Declaration} (h : Store.Holds format path files declarations)
      (info : ∀ d ∈ declarations, d.info = {}) (key_ne : ∀ d ∈ declarations, d.key ≠ "")

theorem Keeps.congr {files files' : FileSystem} (h : files'.lookup path = files.lookup path)
    (hkeeps : Keeps format path files) : Keeps format path files' := by
  cases hkeeps with
  | missing hmissing => exact .missing (h ▸ hmissing)
  | holds hholds info key_ne => exact .holds (hholds.congr h) info key_ne

/-- A store that could be opened holds no key but those of variables. -/
theorem Keeps.of_opened {files : FileSystem} {store : Store} (hformat : format.ReadsBack)
    (hkeeps : Keeps format path files) (hopened : Store.Opened format path files store) :
    ∀ d ∈ store.declarations, d.info = {} ∧ d.key ≠ "" ∧ d.key ≠ optionsKey := by
  unfold Store.Opened at hopened
  cases hkeeps with
  | missing hmissing =>
    rw [hmissing] at hopened
    rw [show store = _ from hopened]
    exact fun d hd => absurd hd List.not_mem_nil
  | holds hholds info key_ne =>
    rw [hholds.lookup_toBool] at hopened
    obtain ⟨rfl, hkeys⟩ := (hholds.found_iff hformat info).mp hopened
    exact fun d hd => ⟨info d hd, (Declaration.isVariableKey_iff _).mp (hkeys d hd)⟩

/-- One command: the only key that may not name a variable is its own. -/
theorem Keeps.perform {edit : Edit} (hformat : format.ReadsBack)
    (hkeeps : Keeps format path machine.files)
    (h : Yields (edit.perform format path) machine () machine') :
    ∃ d declarations, edit.declaration? machine = some d ∧ d ∈ declarations ∧
      Store.Holds format path machine'.files declarations ∧
      ∀ e ∈ declarations, e.info = {} ∧ e.key ≠ "" ∧ (e = d ∨ e.key ≠ optionsKey) := by
  obtain ⟨d, store, declarations, hd, hne, hopened, hmem, hsub, hholds⟩ := of_yields_perform h
  have hstore := hkeeps.of_opened hformat hopened
  refine ⟨d, declarations, hd, hmem, hholds, fun e he => ?_⟩
  rcases hsub e he with rfl | hold
  · exact ⟨(of_declaration? hd).2, hne, .inl rfl⟩
  · obtain ⟨hinfo, hne, hopts⟩ := hstore e hold
    exact ⟨hinfo, hne, .inr hopts⟩

/-- A run of commands from a place without a store. -/
theorem Runs.keeps {start : Machine} {edits : List Edit} (hformat : format.ReadsBack)
    (hmissing : (start.files.lookup path).toBool = false)
    (h : Runs format path start edits after) : Keeps format path after.files := by
  induction h with
  | nil => exact .missing hmissing
  | snoc runs lookup_eq yields ih =>
    obtain ⟨d, declarations, -, -, hholds, hall⟩ := (ih.congr lookup_eq).perform hformat yields
    exact .holds hholds (fun e he => (hall e he).1) fun e he => (hall e he).2.1

/--
**Whatever commands add can be loaded, as long as it is not called like the options.**

Commands were carried out where no store was, and each of them succeeded, the last one on `machine`.
If its key is not that of the options, the store can be loaded and lists the new declaration. If it
is, the store cannot be loaded, and no command succeeds on it any more.
-/
theorem Runs.loads_unless_optionsKey {start between : Machine} {edits : List Edit} {edit : Edit}
    (hformat : format.ReadsBack) (hmissing : (start.files.lookup path).toBool = false)
    (hruns : Runs format path start edits between)
    (hlookup : machine.files.lookup path = between.files.lookup path)
    (hyields : Yields (edit.perform format path) machine () after) :
    ∃ d, edit.declaration? machine = some d ∧
      (edit.key ≠ optionsKey → ∃ declarations, d ∈ declarations ∧
        Yields (Store.load format path : MachineStep StoreError Store) after ⟨path, declarations⟩
          after) ∧
      (edit.key = optionsKey →
        (∀ store final,
          ¬Yields (Store.load format path : MachineStep StoreError Store) after store final) ∧
        ∀ (next : Edit) (again final : Machine),
          again.files.lookup path = after.files.lookup path →
          ¬Yields (next.perform format path) again () final) := by
  obtain ⟨d, declarations, hd, hmem, hholds, hall⟩ :=
    ((hruns.keeps hformat hmissing).congr hlookup).perform hformat hyields
  have hinfo : ∀ e ∈ declarations, e.info = {} := fun e he => (hall e he).1
  have hkey : d.key = edit.key := (of_declaration? hd).1
  refine ⟨d, hd, ?_, ?_⟩
  · intro hne
    refine ⟨declarations, hmem, Store.yields_load_iff.mpr ⟨rfl, ?_⟩⟩
    refine (hholds.found_iff hformat hinfo).mpr ⟨rfl, fun e he => ?_⟩
    obtain ⟨-, hempty, rfl | hopts⟩ := hall e he
    · exact (Declaration.isVariableKey_iff _).mpr ⟨hempty, hkey ▸ hne⟩
    · exact (Declaration.isVariableKey_iff _).mpr ⟨hempty, hopts⟩
  · intro heq
    -- the new declaration is in the file, and with its key nothing can be found there
    have hnot : ∀ {files store}, files.lookup path = after.files.lookup path →
        ¬Store.Found format path files store := by
      intro files store hsame hfound
      have hkeys := (((hholds.congr hsame).found_iff hformat hinfo).mp hfound).2 d hmem
      exact ((Declaration.isVariableKey_iff _).mp hkeys).2 (hkey.trans heq)
    refine ⟨fun store final h => hnot rfl (Store.yields_load_iff.mp h).2, ?_⟩
    intro next again final hsame h
    obtain ⟨_, store, _, -, -, hopened, -⟩ := of_yields_perform h
    unfold Store.Opened at hopened
    rw [hsame, hholds.lookup_toBool] at hopened
    exact hnot hsame hopened

/-- A variable with a value, as a mapping. -/
@[match_pattern] def valueMapping (key value : String) : RawDeclaration :=
  [(.string key, .string value)]

/-- A variable that is unset, as a mapping. -/
@[match_pattern] def unsetMapping (key : String) : RawDeclaration :=
  [(.string key, .string ""), (.string "opts", .mapping [(.string "unset", .bool true)])]

/-- What YAML makes of some stores. -/
def sampleFormat : StoreFormat where
  write?
    | [] => some "envs: []\n"
    | [valueMapping "HOST" "example.com"] => some "envs:\n- HOST: example.com\n"
    | [valueMapping "HOST" "example.com", unsetMapping "HOST"] =>
      some "envs:\n- HOST: example.com\n- HOST: ''\n  opts:\n    unset: true\n"
    | [valueMapping "HOST" "example.com", unsetMapping "HOST", unsetMapping "PORT"] =>
      some ("envs:\n- HOST: example.com\n- HOST: ''\n  opts:\n    unset: true\n" ++
        "- PORT: ''\n  opts:\n    unset: true\n")
    | [valueMapping "opts" "x"] => some "envs:\n- opts: x\n"
    | _ => none
  read
    | "envs: []\n" => .ok []
    | "envs:\n- HOST: example.com\n" => .ok [valueMapping "HOST" "example.com"]
    | "envs:\n- HOST: example.com\n- HOST: ''\n  opts:\n    unset: true\n" =>
      .ok [valueMapping "HOST" "example.com", unsetMapping "HOST"]
    | "envs:\n- opts: x\n" => .ok [valueMapping "opts" "x"]
    | text =>
      if text = "envs:\n- HOST: example.com\n- HOST: ''\n  opts:\n    unset: true\n" ++
          "- PORT: ''\n  opts:\n    unset: true\n" then
        .ok [valueMapping "HOST" "example.com", unsetMapping "HOST", unsetMapping "PORT"]
      else .error .wrongKind

theorem sampleFormat_read {raws : List RawDeclaration} {text : String}
    (h : sampleFormat.write? raws = some text) : sampleFormat.read text = .ok raws := by
  simp only [sampleFormat] at h
  split at h <;> cases h <;> rfl

/-- A machine without files. -/
def bareMachine : Machine where
  files := ⟨∅, []⟩
  environment := []
  input := .nothing
  programs := fun _ => none
  output := .empty
  errors := ""

/-- A variable is set and unset, and then the store lists that it is unset. -/
theorem Runs.loads_unset_host :
    let path := Path.ofText "store.yml"
    let set : Edit := .add ⟨"HOST", .given "example.com", {}, false⟩ false
    let unset : Edit := .unset "HOST"
    let between := ((set.perform sampleFormat path).outcome bareMachine).2
    let after := ((unset.perform sampleFormat path).outcome between).2
    sampleFormat.ReadsBack ∧ (bareMachine.files.lookup path).toBool = false ∧
      Runs sampleFormat path bareMachine [set] between ∧
      Yields (unset.perform sampleFormat path) between () after ∧
      ∃ declarations, .remove "HOST" ∈ declarations ∧
        Yields (Store.load sampleFormat path : MachineStep StoreError Store) after
          ⟨path, declarations⟩ after := by
  intro path set unset between after
  have hformat : sampleFormat.ReadsBack := fun _ _ _ => sampleFormat_read
  have hmissing : (bareMachine.files.lookup path).toBool = false := by decide +kernel
  have hset : Runs sampleFormat path bareMachine [set] between :=
    .snoc .nil rfl (yields_of_toBool (by decide +kernel))
  have hunset : Yields (unset.perform sampleFormat path) between () after :=
    yields_of_toBool (by decide +kernel)
  obtain ⟨d, hd, hloads, -⟩ := Runs.loads_unless_optionsKey hformat hmissing hset rfl hunset
  obtain rfl : .remove "HOST" = d := Option.some.inj hd
  exact ⟨hformat, hmissing, hset, hunset, hloads (by decide)⟩

/-- A variable that is called like the options is added to a new store, which cannot be loaded. -/
theorem Runs.add_optionsKey_not_loads :
    let path := Path.ofText "store.yml"
    let add : Edit := .add ⟨optionsKey, .given "x", {}, false⟩ false
    let after := ((add.perform sampleFormat path).outcome bareMachine).2
    (∀ raws text, sampleFormat.write? raws = some text → sampleFormat.read text = .ok raws) ∧
      (bareMachine.files.lookup path).toBool = false ∧
      Yields (add.perform sampleFormat path) bareMachine () after ∧
      ∀ store final,
        ¬Yields (Store.load sampleFormat path : MachineStep StoreError Store) after store final := by
  intro path add after
  refine ⟨fun _ _ => sampleFormat_read, by decide +kernel, yields_of_toBool (by decide +kernel), ?_⟩
  exact fun store final => not_yields_of_toBool (by decide +kernel)

end Edit

end OrderedEnv
