import OrderedEnv.Proofs.Store.Adding
import OrderedEnv.Request.Perform

/-!
# Lists that grow

Declarations are added to an empty store one after the other, each with a policy of its own. How
often a variable is declared then can be told from what the calls gave: it was new once, and each
time that a declaration was appended there is one more.

* `Store.attempt_shaped` — what a single call does to the list
* `Store.count_attempts` — how often a variable is declared after any number of calls
* `Store.attempts_keep_shape` — both together, and what is left out if nothing is ever appended
-/

namespace OrderedEnv

namespace Store

variable {store : Store} {d : Declaration} {policy : Policy} {key : String}

/-! ## Calls -/

/-- A call that adds a declaration: what it gives, and the store that is left. A call that is
refused leaves the store as it is. -/
def attempt (store : Store) (d : Declaration) (policy : Policy) : Except StoreError Added × Store :=
  match store.add d policy with
  | .ok (done, store') => (.ok done, store')
  | .error cause => (.error cause, store)

/-- A call that was made, with what it gave. -/
structure Call where
  declaration : Declaration
  policy : Policy
  result : Except StoreError Added

namespace Call

/-- A declaration of the variable was added. -/
def succeeds (call : Call) (key : String) : Bool :=
  call.declaration.key = key && call.result.toBool

/-- A declaration of the variable was appended to others. -/
def appends (call : Call) (key : String) : Bool :=
  match call.result with
  | .ok (.appended _) => call.declaration.key = key
  | _ => false

@[simp] theorem succeeds_ok (d : Declaration) (policy : Policy) (done : Added) (key : String) :
    succeeds ⟨d, policy, .ok done⟩ key = decide (d.key = key) := Bool.and_true _

@[simp] theorem succeeds_error (d : Declaration) (policy : Policy) (cause : StoreError)
    (key : String) : succeeds ⟨d, policy, .error cause⟩ key = false := Bool.and_false _

@[simp] theorem appends_added (d : Declaration) (policy : Policy) (key : String) :
    appends ⟨d, policy, .ok .added⟩ key = false := rfl

@[simp] theorem appends_replaced (d : Declaration) (policy : Policy) (count : Nat) (key : String) :
    appends ⟨d, policy, .ok (.replaced count)⟩ key = false := rfl

@[simp] theorem appends_appended (d : Declaration) (policy : Policy) (count : Nat) (key : String) :
    appends ⟨d, policy, .ok (.appended count)⟩ key = decide (d.key = key) := rfl

@[simp] theorem appends_error (d : Declaration) (policy : Policy) (cause : StoreError)
    (key : String) : appends ⟨d, policy, .error cause⟩ key = false := rfl

end Call

/-- Calls that are made one after the other, and the store that is left by the last one. -/
def attempts (store : Store) : List (Declaration × Policy) → List Call × Store
  | [] => ([], store)
  | (d, policy) :: rest =>
    let (result, next) := store.attempt d policy
    let (calls, final) := next.attempts rest
    (⟨d, policy, result⟩ :: calls, final)

theorem attempt_of_adds {done : Added} {ds : List Declaration}
    (h : Adds store.declarations d policy done ds) :
    store.attempt d policy = (.ok done, ⟨store.path, ds⟩) := by
  have hadd : store.add d policy = .ok (done, ⟨store.path, ds⟩) := add_eq_ok_iff.mpr ⟨rfl, h⟩
  rw [attempt, hadd]

theorem attempt_of_refused (hpolicy : policy = .fail) (h : 0 < store.count d.key) :
    store.attempt d policy = (.error (.keyExists d.key), store) := by
  rw [attempt, add_eq_error_iff.mpr ⟨hpolicy, h, rfl⟩]

/-- **A call is refused, or it adds in one of three ways.** -/
theorem attempt_cases (store : Store) (d : Declaration) (policy : Policy) :
    (policy = .fail ∧ 0 < store.count d.key ∧
        store.attempt d policy = (.error (.keyExists d.key), store)) ∨
      ∃ done ds, Adds store.declarations d policy done ds ∧
        store.attempt d policy = (.ok done, ⟨store.path, ds⟩) := by
  cases hadd : store.add d policy with
  | error cause =>
    obtain ⟨hpolicy, hcount, -⟩ := add_eq_error_iff.mp hadd
    exact .inl ⟨hpolicy, hcount, attempt_of_refused hpolicy hcount⟩
  | ok added =>
    have hadds := (add_eq_ok_iff.mp (show store.add d policy = .ok (added.1, added.2) from hadd)).2
    exact .inr ⟨_, _, hadds, attempt_of_adds hadds⟩

/-! ## A single call -/

/-- What a call does to the list of a store. -/
structure Shaped (store : Store) (d : Declaration) (policy : Policy)
    (result : Except StoreError Added) (after : Store) : Prop where
  path : after.path = store.path
  /-- It says that the variable is new just when it was. -/
  added : result = .ok .added ↔ store.count d.key = 0
  /-- If it was not, the call says how often it was declared. -/
  count : ∀ done, result = .ok done → done ≠ .added →
    (policy = .replace ∧ done = .replaced (store.count d.key)) ∨
      (policy = .append ∧ done = .appended (store.count d.key))
  /-- At the places of the variable, and only there, is the new declaration in place of the old. -/
  replaced : ∀ count, result = .ok (.replaced count) →
    after.declarations.length = store.declarations.length ∧
      ∀ (i : Nat) old, store.declarations[i]? = some old →
        after.declarations[i]? = some (if old.key = d.key then d else old)
  /-- If nothing is replaced, the declaration comes behind the list. -/
  behind : ∀ done, result = .ok done → (∀ count, done ≠ .replaced count) →
    after.declarations = store.declarations ++ [d]
  /-- It is refused just when the variable is there and is not to be added then. -/
  refused : ∀ cause, result = .error cause ↔
    policy = .fail ∧ 0 < store.count d.key ∧ cause = .keyExists d.key
  /-- A call that is refused changes nothing. -/
  unchanged : ∀ cause, result = .error cause → after = store
  /-- To replace once more by the same declaration changes nothing. -/
  again : policy = .replace →
    ∃ count, after.attempt d .replace = (.ok (.replaced count), after)

/-- What was put behind the list or in place of others is replaced by itself. -/
theorem attempt_replace_again {ds : List Declaration} (path : Path) (hcount : 0 < countIn ds d.key)
    (hsame : replaceAll d ds = ds) :
    (⟨path, ds⟩ : Store).attempt d .replace = (.ok (.replaced (countIn ds d.key)), ⟨path, ds⟩) := by
  have hadds : Adds ds d .replace (.replaced (countIn ds d.key)) ds := by
    have hreplaced : Adds ds d .replace _ (replaceAll d ds) := .replaced hcount
    rwa [hsame] at hreplaced
  exact attempt_of_adds hadds

theorem shaped_of_refused (hpolicy : policy = .fail) (hcount : 0 < store.count d.key) :
    Shaped store d policy (.error (.keyExists d.key)) store where
  path := rfl
  added := ⟨nofun, fun hzero => by omega⟩
  count := nofun
  replaced := nofun
  behind := nofun
  refused := by
    intro cause
    simp [hpolicy, hcount, eq_comm]
  unchanged := fun _ _ => rfl
  again := by
    rintro rfl
    cases hpolicy

theorem Adds.shaped {done : Added} {ds : List Declaration}
    (h : Adds store.declarations d policy done ds) :
    Shaped store d policy (.ok done) ⟨store.path, ds⟩ := by
  cases h with
  | added policy hcount =>
    have hnone : ¬0 < store.count d.key := by
      rw [Store.count, hcount]
      omega
    exact
      { path := rfl
        added := ⟨fun _ => hcount, fun _ => rfl⟩
        count := by
          rintro _ ⟨⟩ hne
          exact absurd rfl hne
        replaced := nofun
        behind := fun _ _ _ => rfl
        refused := by
          intro cause
          simp [hnone]
        unchanged := nofun
        again := by
          intro _
          refine ⟨_, attempt_replace_again store.path ?_ (replaceAll_append_singleton hcount)⟩
          rw [countIn_append_singleton, if_pos rfl]
          omega }
  | replaced hcount =>
    have hsome : store.count d.key ≠ 0 := Nat.pos_iff_ne_zero.mp hcount
    exact
      { path := rfl
        added := ⟨nofun, fun hzero => absurd hzero hsome⟩
        count := by
          rintro _ ⟨⟩ -
          exact .inl ⟨rfl, rfl⟩
        replaced := by
          rintro _ ⟨⟩
          exact ⟨List.length_map _, fun i old hold => getElem?_replaceAll hold⟩
        behind := by
          rintro _ ⟨⟩ hne
          exact absurd rfl (hne _)
        refused := by
          intro cause
          simp
        unchanged := nofun
        again := by
          intro _
          refine ⟨_, attempt_replace_again store.path ?_ (replaceAll_replaceAll d _)⟩
          rwa [countIn_replaceAll] }
  | appended hcount =>
    have hsome : store.count d.key ≠ 0 := Nat.pos_iff_ne_zero.mp hcount
    exact
      { path := rfl
        added := ⟨nofun, fun hzero => absurd hzero hsome⟩
        count := by
          rintro _ ⟨⟩ -
          exact .inr ⟨rfl, rfl⟩
        replaced := nofun
        behind := fun _ _ _ => rfl
        refused := by
          intro cause
          simp
        unchanged := nofun
        again := nofun }

/-- **Every call does to the list what it says.** -/
theorem attempt_shaped (store : Store) (d : Declaration) (policy : Policy) :
    Shaped store d policy (store.attempt d policy).1 (store.attempt d policy).2 := by
  rcases attempt_cases store d policy with ⟨hpolicy, hcount, hattempt⟩ | ⟨done, ds, hadds, hattempt⟩
  · rw [hattempt]
    exact shaped_of_refused hpolicy hcount
  · rw [hattempt]
    exact hadds.shaped

/-! ## Any number of calls -/

/-- A call for a variable that is new appends to nothing. -/
theorem appends_attempt_eq_false (h : store.count key = 0) :
    Call.appends ⟨d, policy, (store.attempt d policy).1⟩ key = false := by
  rcases attempt_cases store d policy with ⟨-, -, hattempt⟩ | ⟨done, ds, hadds, hattempt⟩
  · rw [hattempt, Call.appends_error]
  · rw [hattempt]
    cases hadds with
    | added _ _ | replaced _ => rfl
    | appended hcount =>
      rw [Call.appends_appended]
      refine decide_eq_false ?_
      rintro rfl
      exact absurd hcount (Nat.not_lt.mpr (Nat.le_of_eq h))

/-- **What a call does to how often a variable is declared.** It is declared once if it was new, and
once more if a declaration is appended. -/
theorem count_attempt (store : Store) (d : Declaration) (policy : Policy) (key : String) :
    let call : Call := ⟨d, policy, (store.attempt d policy).1⟩
    (store.attempt d policy).2.count key =
      if store.count key = 0 then (if call.succeeds key then 1 else 0)
      else store.count key + if call.appends key then 1 else 0 := by
  rcases attempt_cases store d policy with ⟨-, hcount, hattempt⟩ | ⟨done, ds, hadds, hattempt⟩
  · simp [hattempt]
  · rw [hattempt]
    by_cases hkey : d.key = key
    · subst hkey
      cases hadds with
      | added _ hcount => simp [Store.count, countIn_append_singleton, hcount]
      | replaced hcount =>
        simp [Store.count, countIn_replaceAll, Nat.pos_iff_ne_zero.mp hcount]
      | appended hcount => simp [Store.count, countIn_append_singleton]
    · -- the call is about another variable
      cases hadds with
      | added _ _ | appended _ => simp [Store.count, countIn_append_singleton, hkey]
      | replaced _ => simp [Store.count, countIn_replaceAll, hkey]

/-- **How often a variable is declared after any number of calls.** -/
theorem count_attempts (asked : List (Declaration × Policy)) (store : Store) (key : String) :
    let calls := (store.attempts asked).1
    (store.attempts asked).2.count key =
      if store.count key = 0 then
        (if calls.any (Call.succeeds · key) then 1 + calls.countP (Call.appends · key) else 0)
      else store.count key + calls.countP (Call.appends · key) := by
  induction asked generalizing store with
  | nil => simp [attempts]
  | cons first rest ih =>
    obtain ⟨d, policy⟩ := first
    have hfirst := count_attempt store d policy key
    have hrest := ih (store.attempt d policy).2
    simp only [attempts, List.any_cons, List.countP_cons] at hfirst hrest ⊢
    rw [hrest, hfirst]
    by_cases hnew : store.count key = 0
    · rw [if_pos hnew, appends_attempt_eq_false hnew]
      cases Call.succeeds ⟨d, policy, (store.attempt d policy).1⟩ key <;> simp [hnew]
    · rw [if_neg hnew, if_neg hnew, if_neg (by omega)]
      omega

/-- What was asked for is what was called. -/
theorem mem_attempts {asked : List (Declaration × Policy)} {store : Store} {call : Call}
    (h : call ∈ (store.attempts asked).1) :
    (call.declaration, call.policy) ∈ asked ∧
      ∃ store' : Store, call.result = (store'.attempt call.declaration call.policy).1 := by
  induction asked generalizing store with
  | nil => exact absurd h List.not_mem_nil
  | cons first rest ih =>
    rcases List.mem_cons.mp h with rfl | hrest
    · exact ⟨List.mem_cons_self, store, rfl⟩
    · obtain ⟨hmem, hresult⟩ := ih hrest
      exact ⟨List.mem_cons_of_mem first hmem, hresult⟩

/-- Only what is asked to be appended is appended. -/
theorem countP_appends_eq_zero {asked : List (Declaration × Policy)}
    (h : ∀ call ∈ asked, call.2 ≠ .append) (store : Store) (key : String) :
    (store.attempts asked).1.countP (Call.appends · key) = 0 := by
  refine List.countP_eq_zero.mpr fun call hcall happends => ?_
  obtain ⟨hmem, store', hresult⟩ := mem_attempts hcall
  obtain ⟨d, policy, result⟩ := call
  obtain rfl : result = (store'.attempt d policy).1 := hresult
  rcases attempt_cases store' d policy with ⟨-, -, hattempt⟩ | ⟨done, ds, hadds, hattempt⟩
  · simp [hattempt] at happends
  · rw [hattempt] at happends
    cases hadds with
    | added _ _ | replaced _ => cases happends
    | appended _ => exact h _ hmem rfl

/-- Where no variable is declared twice, there is nothing to ask. -/
theorem resolvePolicy_of_count_le_one {m : Type → Type} [Monad m] [Host m]
    (h : store.count key ≤ 1) (append tool : Bool) :
    (Request.resolvePolicy store key append tool : ExceptT RequestError m Policy) =
      pure (if append then .append else .replace) := by
  unfold Request.resolvePolicy
  cases append with
  | true => rfl
  | false => simp [h]

/--
**Adding keeps the shape of a list.**

Calls were made from an empty store on. A variable is declared as often as was said: not at all
until the first call that adds it, and then once and once more for each declaration that was
appended. If none was asked to be appended, no variable is declared twice, and whatever is added
next, no question comes up.

A call to any store says that the variable is new just when it is, and otherwise how often it was
declared. It puts the declaration behind the list, or in place of all of its variable and of nothing
else, or it is refused and changes nothing. What was replaced is not changed by replacing it again.
-/
theorem attempts_keep_shape :
    (∀ (path : Path) (asked : List (Declaration × Policy)),
      let calls := ((empty path).attempts asked).1
      let store := ((empty path).attempts asked).2
      (∀ key, store.count key =
        if calls.any (Call.succeeds · key) then 1 + calls.countP (Call.appends · key) else 0) ∧
      ((∀ call ∈ asked, call.2 ≠ .append) →
        (store.declarations.map Declaration.key).Nodup ∧
        ∀ (m : Type → Type) [Monad m] [Host m] (key : String) (append tool : Bool),
          (Request.resolvePolicy store key append tool : ExceptT RequestError m Policy) =
            pure (if append then .append else .replace))) ∧
    ∀ (store : Store) (d : Declaration) (policy : Policy),
      Shaped store d policy (store.attempt d policy).1 (store.attempt d policy).2 := by
  refine ⟨fun path asked => ?_, attempt_shaped⟩
  intro calls store
  have hcount : ∀ key, store.count key =
      if calls.any (Call.succeeds · key) then 1 + calls.countP (Call.appends · key) else 0 :=
    fun key => count_attempts asked (empty path) key
  refine ⟨hcount, fun happend => ?_⟩
  have hle : ∀ key, store.count key ≤ 1 := by
    intro key
    rw [hcount, show calls.countP (Call.appends · key) = 0 from countP_appends_eq_zero happend _ _]
    split <;> omega
  exact ⟨nodup_map_key_iff.mpr hle, fun m _ _ key => resolvePolicy_of_count_le_one (hle key)⟩

/-- A variable is added, appended, refused and replaced: it was new once and appended once, so it is
there twice. In a second run nothing is asked to be appended. -/
theorem attempts_keep_shape_twice :
    let a (value : String) : Declaration := { key := "A", value }
    let b : Declaration := { key := "B", value := "x" }
    let start := empty (.ofText "store.yml")
    let asked :=
      [(a "1", Policy.fail), (a "2", .append), (a "3", .fail), (b, .fail), (a "4", .replace)]
    let plain := [(a "1", Policy.replace), (b, .fail), (a "4", .replace)]
    (start.attempts asked).2.declarations.map Declaration.value = ["4", "4", "x"] ∧
      (start.attempts asked).2.count "A" = 2 ∧
      (∀ call ∈ plain, call.2 ≠ .append) ∧
      ((start.attempts plain).2.declarations.map Declaration.key).Nodup := by
  intro a b start asked plain
  obtain ⟨hcount, -⟩ := attempts_keep_shape.1 (.ofText "store.yml") asked
  obtain ⟨-, hplain⟩ := attempts_keep_shape.1 (.ofText "store.yml") plain
  have happend : ∀ call ∈ plain, call.2 ≠ .append := by simp [plain]
  exact ⟨by decide +kernel, (hcount "A").trans (by decide +kernel), happend, (hplain happend).1⟩

end Store

end OrderedEnv
