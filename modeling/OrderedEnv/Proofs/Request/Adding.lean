import OrderedEnv.Proofs.Request.Failing
import OrderedEnv.Proofs.Text.Spelling

/-!
# Declarations that `add` replaces

Where several declarations of a variable are, `add` replaces none of them unless the person at the
terminal said so. What it does depends on three things that are settled one after another: how many
there are, what is answered to the question, and how many the store counts when it is changed.

* `Request.of_yields_performAdd` — the parts of a successful `add`
* `Request.performAdd_replaces_with_consent` — what becomes of the list, and when it may not change
-/

namespace OrderedEnv

/-! ## Lists -/

namespace Store

variable {store store' : Store} {d : Declaration} {declarations : List Declaration} {done : Added}

theorem countIn_append_cons {front back : List Declaration} {old : Declaration} {key : String}
    (hold : old.key = key) :
    countIn (front ++ old :: back) key = countIn (front ++ back) key + 1 := by
  simp only [countIn, List.countP_append, List.countP_cons, hold, decide_true, if_true]
  omega

theorem of_add_append (h : store.add d .append = .ok (done, store')) :
    store'.declarations = store.declarations ++ [d] := by
  obtain ⟨-, hadds⟩ := add_eq_ok_iff.mp h
  generalize store'.declarations = declarations at hadds
  cases hadds <;> rfl

/-- A new variable comes behind the list, and one that is there is replaced wherever it is. -/
theorem of_add_replace (h : store.add d .replace = .ok (done, store')) :
    store'.declarations = if store.count d.key = 0 then store.declarations ++ [d]
      else replaceAll d store.declarations := by
  obtain ⟨-, hadds⟩ := add_eq_ok_iff.mp h
  generalize store'.declarations = declarations at hadds
  cases hadds with
  | added _ hcount => exact (if_pos hcount).symm
  | replaced hcount => exact (if_neg (Nat.pos_iff_ne_zero.mp hcount)).symm

/-- The only declaration of a variable is replaced in its place. -/
theorem exists_replaceAll_of_countIn_eq_one (h : countIn declarations d.key = 1) :
    ∃ front old back, declarations = front ++ old :: back ∧ old.key = d.key ∧
      (∀ e ∈ front ++ back, e.key ≠ d.key) ∧ replaceAll d declarations = front ++ d :: back := by
  have hpos : 0 < declarations.countP fun e => e.key = d.key := by
    change 0 < countIn declarations d.key
    omega
  obtain ⟨old, hmem, hold⟩ := List.countP_pos_iff.mp hpos
  obtain ⟨front, back, rfl⟩ := List.append_of_mem hmem
  have hkey : old.key = d.key := of_decide_eq_true hold
  have hne : ∀ e ∈ front ++ back, e.key ≠ d.key := by
    rw [countIn_append_cons hkey] at h
    exact countIn_eq_zero_iff.mp (by omega)
  obtain ⟨hfront, hback⟩ := List.forall_mem_append.mp hne
  refine ⟨front, old, back, rfl, hkey, hne, ?_⟩
  rw [replaceAll, List.map_append, List.map_cons, if_pos hkey]
  exact congrArg₂ (· ++ d :: ·) (replaceAll_of_forall_ne hfront) (replaceAll_of_forall_ne hback)

theorem Opened.unique {format : StoreFormat} {path : Path} {files : FileSystem}
    (h : Opened format path files store) (h' : Opened format path files store') :
    store = store' := by
  unfold Opened at h h'
  split at h
  · next hthere =>
    rw [if_pos hthere] at h'
    obtain ⟨text, htext, declarations, hparse, rfl⟩ := h
    obtain ⟨text', htext', declarations', hparse', rfl⟩ := h'
    obtain rfl : text = text' := Except.ok.inj (htext.symm.trans htext')
    obtain rfl : declarations = declarations' := Except.ok.inj (hparse.symm.trans hparse')
    rfl
  · next hmissing =>
    rw [if_neg hmissing] at h'
    exact h.trans h'.symm

end Store

/-! ## Terminals -/

/-- The same is typed in answer to a question, if one can be asked. -/
def Machine.SameTerminal (machine machine' : Machine) : Prop :=
  ∀ typed, machine'.Interactive typed ↔ machine.Interactive typed

instance : IsPreorder Machine Machine.SameTerminal where
  refl _ _ := .rfl
  trans _ _ _ h h' typed := (h' typed).trans (h typed)

theorem Machine.SameTerminal.of_input {machine machine' : Machine}
    (hinput : ∀ typed, machine'.input = .terminal typed ↔ machine.input = .terminal typed)
    (herrors : machine'.errorsTerminal = machine.errorsTerminal) :
    machine.SameTerminal machine' := by
  intro typed
  constructor
  · exact fun h => ⟨(hinput typed).mp h.input, herrors.symm.trans h.errors⟩
  · exact fun h => ⟨(hinput typed).mpr h.input, herrors.trans h.errors⟩

theorem Machine.FilesOnly.sameTerminal {F : FileSystem → FileSystem → Prop}
    {machine machine' : Machine} (h : machine.FilesOnly F machine') :
    machine.SameTerminal machine' :=
  .of_input (fun typed => by rw [h.input]) (by rw [h.others])

/-- What is taken out of a pipe is not typed. -/
theorem leaves_pipedInput_sameTerminal {ε : Type} (machine : Machine) :
    Leaves (Host.pipedInput : MachineStep ε (Option ByteArray)) machine machine.SameTerminal := by
  refine leaves_lift_of_yields fun found after h => ?_
  rcases of_yields_pipedInput h with ⟨content, hinput, -, -, rfl⟩ | ⟨-, -, rfl⟩
  · exact .of_input (fun typed => by simp [hinput]) rfl
  · exact Std.Refl.refl after

namespace Request

open Text

variable {format : StoreFormat} {path : Path} {machine machine' : Machine} {store : Store}
  {request : AddRequest} {tool : Bool}

theorem leaves_resolveValue_sameTerminal (origin : ValueOrigin) (machine : Machine) :
    Leaves (resolveValue origin : MachineStep RequestError String) machine
      machine.SameTerminal := by
  cases origin with
  | given value => exact Std.Refl.refl machine
  | file path =>
    refine leaves_bind_of_trans (Std.Refl.refl machine) fun found between _ _ => ?_
    split <;> exact Std.Refl.refl between
  | input =>
    refine leaves_bind_of_trans (leaves_pipedInput_sameTerminal machine) fun found between _ _ => ?_
    split
    · exact Std.Refl.refl between
    · split <;> exact Std.Refl.refl between

/-! ## Answers -/

/-- A question can be asked, and what is typed then spells one of some words. -/
def Answers (machine : Machine) (words : List String) : Prop :=
  ∃ typed, machine.Interactive typed ∧
    ∃ word ∈ words, Spells word (String.ofList (StandardInput.typedLine true typed).1)

theorem ofAnswer_eq_replace_iff {line : String} :
    ofAnswer line = .ok .replace ↔ ∃ word ∈ ["replace", "r"], Spells word line := by
  rw [exists_spells_iff (by decide), ofAnswer]
  simp only [List.mem_cons, List.not_mem_nil, or_false, Bool.or_eq_true, decide_eq_true_eq]
  split
  · next hreplace => simp [hreplace]
  · next hother => split <;> simp [hother]

theorem ofAnswer_eq_append_iff {line : String} :
    ofAnswer line = .ok .append ↔ ∃ word ∈ ["append", "a"], Spells word line := by
  rw [exists_spells_iff (by decide), ofAnswer]
  simp only [List.mem_cons, List.not_mem_nil, or_false, Bool.or_eq_true, decide_eq_true_eq]
  split
  · next hreplace => rcases hreplace with hword | hword <;> simp [hword]
  · split
    · next happend => simp [happend]
    · next hother => simp [hother]

theorem ofAnswer_ne_fail {line : String} : ofAnswer line ≠ .ok .fail := by
  unfold ofAnswer
  extract_lets answer
  split
  · simp
  · split <;> simp

/-- **How it is settled what becomes of the declarations that are there.** -/
theorem of_yields_resolvePolicy {key : String} {append : Bool} {policy : Store.Policy}
    (h : Yields (resolvePolicy store key append tool) machine policy machine') :
    (append = true ∧ policy = .append) ∨
      (append = false ∧ store.count key ≤ 1 ∧ policy = .replace) ∨
      (append = false ∧ 2 ≤ store.count key ∧ tool = false ∧
        ∃ typed, machine.Interactive typed ∧
          ofAnswer (String.ofList (StandardInput.typedLine true typed).1) = .ok policy) := by
  unfold resolvePolicy at h
  extract_lets count at h
  split at h
  · next happend => exact .inl ⟨happend, (yields_pure.mp h).1.symm⟩
  next hfirst =>
  have happend : append = false := Bool.eq_false_iff.mpr hfirst
  split at h
  · next hcount => exact .inr (.inl ⟨happend, hcount, (yields_pure.mp h).1.symm⟩)
  next hcount =>
  split at h
  · exact absurd h yields_throw
  next htool =>
  obtain ⟨answer, asked, hask, hrest⟩ := yields_bind.mp h
  refine .inr (.inr ⟨happend, by omega, Bool.eq_false_iff.mpr htool, ?_⟩)
  rcases of_yields_ask hask with ⟨typed, hinteractive, rfl, -⟩ | ⟨-, rfl, -⟩
  · simp only [Text.fromUTF8?_toUTF8] at hrest
    exact ⟨typed, hinteractive, (yields_liftExcept.mp hrest).1⟩
  · exact absurd hrest yields_throw

/-- If it is to be put behind the others, the declaration is not to replace them. -/
theorem policy_eq_append {key : String} {append : Bool} {policy : Store.Policy}
    (h : Yields (resolvePolicy store key append tool) machine policy machine')
    (hsaid : append = true ∨ 2 ≤ store.count key ∧ Answers machine ["append", "a"]) :
    policy = .append := by
  rcases of_yields_resolvePolicy h with
    ⟨-, rfl⟩ | ⟨hnot, hcount, -⟩ | ⟨hnot, -, -, typed, hasked, hanswer⟩
  · rfl
  · rcases hsaid with happend | ⟨hmany, -⟩
    · exact absurd (happend.symm.trans hnot) (by decide)
    · omega
  · rcases hsaid with happend | ⟨-, typed', hasked', hspells⟩
    · exact absurd (happend.symm.trans hnot) (by decide)
    · obtain rfl : typed = typed' :=
        StandardInput.terminal.inj (hasked.input.symm.trans hasked'.input)
      exact Except.ok.inj (hanswer.symm.trans (ofAnswer_eq_append_iff.mpr hspells))

/-! ## Adding -/

/-- **The parts of a successful `add`.** -/
theorem of_yields_performAdd
    (h : Yields (performAdd format path request tool) machine () machine') :
    ∃ value store policy asking asked done store', request.origin.value? machine = some value ∧
      Store.Opened format path machine.files store ∧ machine.SameTerminal asking ∧
      Yields (resolvePolicy store request.key request.append tool) asking policy asked ∧
      store.add { key := request.key, value, options := request.options } policy =
        .ok (done, store') ∧
      Store.Holds format path machine'.files store'.declarations := by
  rw [performAdd_eq] at h
  split at h
  · exact absurd (yields_bind.mp h) (by simp)
  obtain ⟨value, resolved, hresolve, hopen⟩ := yields_bind.mp h
  obtain ⟨hvalue, hfiles⟩ := of_yields_resolveValue hresolve
  obtain ⟨store, loaded, hload, hadd⟩ := yields_bind.mp hopen
  have hopened := Store.opened_of_yields_loadOrInit (yields_adapt.mp hload)
  obtain ⟨environment, between, hlook, hlimits⟩ := yields_bind.mp hadd
  obtain ⟨rfl, rfl⟩ := yields_environment.mp hlook
  obtain ⟨limits, limited, hlimited, hsettle⟩ := yields_bind.mp hlimits
  unfold settle at hsettle
  split at hsettle
  · exact absurd hsettle yields_throw
  obtain ⟨policy, asked, hpolicy, hkeep⟩ := yields_bind.mp hsettle
  obtain ⟨done, store', hadded, hholds⟩ := of_yields_keep (addedReport request.key) hkeep
  -- nothing that is typed is read before the question
  have hresolved := (leaves_resolveValue_sameTerminal request.origin machine).of_yields hresolve
  have hloaded := ((Store.leaves_loadOrInit format path resolved).of_yields
    (yields_adapt.mp hload)).sameTerminal
  have hlimited := ((Limits.leaves_loadOrInit _ between).of_yields
    (yields_adapt.mp hlimited)).sameTerminal
  have hasking : machine.SameTerminal limited :=
    IsTrans.trans _ _ _ hresolved (IsTrans.trans _ _ _ hloaded hlimited)
  exact ⟨value, store, policy, limited, asked, done, store', hvalue, hfiles ▸ hopened, hasking,
    hpolicy, hadded, hopened.path_eq ▸ hholds⟩

/-- What may become of a list to which a declaration is added. -/
inductive Change where
  /-- The declaration comes behind the list. -/
  | appended
  /-- It takes the place of the only one of its variable. -/
  | replacedOne
  /-- It takes the places of all of its variable, of which there are several. -/
  | replacedAll

/-- The change is what became of a list, and it was allowed. -/
def Change.Describes (request : AddRequest) (tool : Bool) (machine : Machine) (d : Declaration)
    (declarations declarations' : List Declaration) : Change → Prop
  | appended => declarations' = declarations ++ [d]
  | replacedOne =>
    ∃ front old back, declarations = front ++ old :: back ∧ old.key = d.key ∧
      (∀ e ∈ front ++ back, e.key ≠ d.key) ∧ declarations' = front ++ d :: back
  | replacedAll =>
    2 ≤ Store.countIn declarations d.key ∧ request.append = false ∧ tool = false ∧
      Answers machine ["replace", "r"] ∧ declarations'.length = declarations.length ∧
      ∀ (i : Nat) old, declarations[i]? = some old →
        declarations'[i]? = some (if old.key = d.key then d else old)

/-- Which change it is can be told from how many there are. -/
theorem Change.Describes.eq {d : Declaration} {declarations declarations' : List Declaration}
    {change : Change} (h : change.Describes request tool machine d declarations declarations') :
    change =
      if declarations'.length = declarations.length + 1 then appended
      else if Store.countIn declarations d.key = 1 then replacedOne
      else replacedAll := by
  cases change with
  | appended =>
    obtain rfl : declarations' = declarations ++ [d] := h
    simp
  | replacedOne =>
    obtain ⟨front, old, back, rfl, hold, hothers, rfl⟩ := h
    have hcount : Store.countIn (front ++ old :: back) d.key = 1 := by
      rw [Store.countIn_append_cons hold, Store.countIn_eq_zero_iff.mpr hothers]
    simp [hcount]
  | replacedAll =>
    obtain ⟨hmany, -, -, -, hlength, -⟩ := h
    rw [if_neg (by omega), if_neg (by omega)]

/-- What is settled allows the change that is made. -/
theorem exists_change {d : Declaration} {policy : Store.Policy} {asking asked : Machine}
    {store' : Store} {done : Store.Added} (hasking : machine.SameTerminal asking)
    (hpolicy : Yields (resolvePolicy store d.key request.append tool) asking policy asked)
    (hadded : store.add d policy = .ok (done, store')) :
    ∃ change : Change,
      change.Describes request tool machine d store.declarations store'.declarations := by
  rcases of_yields_resolvePolicy hpolicy with
    ⟨-, rfl⟩ | ⟨-, hcount, rfl⟩ | ⟨happend, hmany, htool, typed, hasked, hanswer⟩
  · exact ⟨.appended, Store.of_add_append hadded⟩
  · have hreplaced := Store.of_add_replace hadded
    split at hreplaced
    · exact ⟨.appended, hreplaced⟩
    · next hsome =>
      have hone : Store.countIn store.declarations d.key = 1 := by
        change store.count d.key = 1
        omega
      obtain ⟨front, old, back, hlist, hold, hothers, hplace⟩ :=
        Store.exists_replaceAll_of_countIn_eq_one hone
      exact ⟨.replacedOne, front, old, back, hlist, hold, hothers, hreplaced.trans hplace⟩
  · cases policy with
    | replace =>
      have hreplaced := Store.of_add_replace hadded
      rw [if_neg (by omega)] at hreplaced
      refine ⟨.replacedAll, hmany, happend, htool,
        ⟨typed, (hasking typed).mp hasked, ofAnswer_eq_replace_iff.mp hanswer⟩, ?_, ?_⟩
      · rw [hreplaced]
        exact List.length_map _
      · intro i old hold
        rw [hreplaced, Store.replaceAll, List.getElem?_map, hold]
        rfl
    | append => exact ⟨.appended, Store.of_add_append hadded⟩
    | fail => exact absurd hanswer ofAnswer_ne_fail

/--
**Several declarations are replaced only with consent.**

When `add` succeeds, it takes the list that is found, or an empty one where nothing is, and just one
of three things became of it. The new declaration came behind it, or it took the place of the only
one of its variable, or the places of several; then a question was shown at a terminal, and the line
typed at the terminal was the answer to do so. It came behind the list if that was asked for from the
start, or was the answer. Where there are several declarations and that was not asked for, `add`
fails if no question may be asked, and if the standard input or the output for errors is no terminal.
-/
theorem performAdd_replaces_with_consent (format : StoreFormat) (path : Path) (request : AddRequest)
    (tool : Bool) (machine : Machine) :
    (∀ machine', Yields (performAdd format path request tool) machine () machine' →
      ∃ value declarations declarations', request.origin.value? machine = some value ∧
        Store.Opened format path machine.files ⟨path, declarations⟩ ∧
        Store.Holds format path machine'.files declarations' ∧
        let d : Declaration := { key := request.key, value, options := request.options }
        (∃! change : Change, change.Describes request tool machine d declarations declarations') ∧
          (request.append = true ∨
              2 ≤ Store.countIn declarations d.key ∧ Answers machine ["append", "a"] →
            declarations' = declarations ++ [d])) ∧
      ∀ declarations, Store.Opened format path machine.files ⟨path, declarations⟩ →
        2 ≤ Store.countIn declarations request.key → request.append = false →
        (tool = true ∨ (∀ typed, machine.input ≠ .terminal typed) ∨
          machine.errorsTerminal = false) →
        ∃ machine', Fails (performAdd format path request tool) machine machine' := by
  constructor
  · intro machine' h
    obtain ⟨value, store, policy, asking, asked, done, store', hvalue, hopened, hasking, hpolicy,
      hadded, hholds⟩ := of_yields_performAdd h
    obtain ⟨_, declarations⟩ := store
    obtain rfl : _ = path := hopened.path_eq
    refine ⟨value, declarations, store'.declarations, hvalue, hopened, hholds, ?_, fun hsaid => ?_⟩
    · obtain ⟨change, hchange⟩ := exists_change hasking hpolicy hadded
      exact ⟨change, hchange, fun other hother => hother.eq.trans hchange.eq.symm⟩
    · have hasked : request.append = true ∨
          2 ≤ Store.countIn declarations request.key ∧ Answers asking ["append", "a"] :=
        hsaid.imp_right fun ⟨hmany, typed, hinteractive, hspells⟩ =>
          ⟨hmany, typed, (hasking typed).mpr hinteractive, hspells⟩
      obtain rfl := policy_eq_append hpolicy hasked
      exact Store.of_add_append hadded
  · intro declarations hopened hmany hnot hnobody
    refine (exists_yields_or_fails _ machine).resolve_left ?_
    rintro ⟨_, machine', h⟩
    obtain ⟨value, store, policy, asking, asked, done, store', hvalue, hopened', hasking, hpolicy,
      hadded, hholds⟩ := of_yields_performAdd h
    obtain rfl := hopened.unique hopened'
    rcases of_yields_resolvePolicy hpolicy with
      ⟨happend, -⟩ | ⟨-, hcount, -⟩ | ⟨-, -, htool, typed, hasked, -⟩
    · exact absurd (happend.symm.trans hnot) (by decide)
    · exact absurd hcount (Nat.not_le.mpr hmany)
    · have hinteractive : machine.Interactive typed := (hasking typed).mp hasked
      rcases hnobody with hyes | hnone | hunseen
      · exact absurd (hyes.symm.trans htool) (by decide)
      · exact hnone typed hinteractive.input
      · exact absurd (hunseen.symm.trans hinteractive.errors) (by decide)

/-- The format of the samples, with one text more. -/
def twiceFormat : StoreFormat where
  write?
    | [Edit.valueMapping "HOST" "example.com", Edit.valueMapping "HOST" "example.com"] =>
      some "envs:\n- HOST: example.com\n- HOST: example.com\n"
    | raws => Edit.sampleFormat.write? raws
  read := Edit.sampleFormat.read

/-- A machine with a store in which a variable is set and unset, and with an answer. -/
def answeringMachine : Machine :=
  { Edit.bareMachine with
    files := Edit.bareMachine.files.insert [(Path.ofText "store.yml").bytes]
      (.file sampleText.toUTF8)
    input := .terminal " Replace\n".toList
    errorsTerminal := true }

/-- The answer is to replace both declarations. In the mode of tools there is no question, and none
can be asked if errors go to a file. -/
theorem performAdd_replaces_with_consent_answered :
    let path := Path.ofText "store.yml"
    let request : AddRequest := ⟨"HOST", .given "example.com", {}, false⟩
    let host : Declaration := { key := "HOST", value := "example.com" }
    let declarations := [host, .remove "HOST"]
    let add (tool : Bool) : MachineStep RequestError Unit :=
      performAdd twiceFormat path request tool
    let unseen : Machine := { answeringMachine with errorsTerminal := false }
    Store.Opened twiceFormat path answeringMachine.files ⟨path, declarations⟩ ∧
      2 ≤ Store.countIn declarations "HOST" ∧
      (∃ after declarations', Yields (add false) answeringMachine () after ∧
        Store.Holds twiceFormat path after.files declarations' ∧
        ∃! change : Change,
          change.Describes request false answeringMachine host declarations declarations') ∧
      (∃ after, Fails (add true) answeringMachine after) ∧
      ∃ after, Fails (add false) unseen after := by
  intro path request host declarations add unseen
  have hmany : 2 ≤ Store.countIn declarations "HOST" := by decide
  have hopened : Store.Opened twiceFormat path answeringMachine.files ⟨path, declarations⟩ := by
    have hthere : (answeringMachine.files.lookup path).toBool = true := by decide +kernel
    unfold Store.Opened
    rw [if_pos hthere]
    exact ⟨sampleText, by decide +kernel, declarations, rfl, rfl⟩
  have hyields : Yields (add false) answeringMachine () ((add false).outcome answeringMachine).2 :=
    yields_of_toBool (by decide +kernel)
  refine ⟨hopened, hmany, ?_, ?_, ?_⟩
  · obtain ⟨value, found, declarations', hvalue, hfound, hholds, hchange, -⟩ :=
      (performAdd_replaces_with_consent twiceFormat path request false answeringMachine).1 _ hyields
    obtain rfl : "example.com" = value := Option.some.inj hvalue
    obtain rfl : declarations = found := congrArg Store.declarations (hopened.unique hfound)
    exact ⟨_, declarations', hyields, hholds, hchange⟩
  · exact (performAdd_replaces_with_consent twiceFormat path request true answeringMachine).2
      declarations hopened hmany rfl (.inl rfl)
  · exact (performAdd_replaces_with_consent twiceFormat path request false unseen).2
      declarations hopened hmany rfl (.inr (.inr rfl))

end Request

end OrderedEnv
