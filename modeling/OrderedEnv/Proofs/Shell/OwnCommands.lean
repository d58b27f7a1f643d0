import OrderedEnv.Proofs.Declaration.RoundTrip
import OrderedEnv.Proofs.Evaluation.Reaching
import OrderedEnv.Proofs.Expansion.FixedPoint
import OrderedEnv.Proofs.Shell.Reading

/-!
# The commands in a script

A script is made to be run as a whole, so it should hold no other commands than its own: one for each
variable that is set or removed. Values are quoted, and no value can add a command. Names are written
as they are. A declaration may have any name but the empty one and that of the options, so it depends
on the names whether a script holds its own commands only (`read_script_says_iff`), and a name can
bring along any command (`read_script_smuggles`).
-/

namespace OrderedEnv

/-- The commands that set or remove a variable. -/
def History.acting (history : History) : History := history.filter fun c => c.target?.isSome

namespace Shell

/-! ## Commands and words -/

/-- The shells of the POSIX family. -/
def IsPosix (shell : Shell) : Prop := shell = .bash ∨ shell = .zsh ∨ shell = .sh

/-- The words are those of one simple command, which does in a POSIX shell what is said: `export`
with one assignment, or `unset` with one name. -/
inductive Says : Command → List String → Prop
  | set {key value word : String} {sensitive : Bool} (h : assignment? word = some (key, value)) :
      Says (.set key value sensitive) ["export", word]
  | unset {key : String} (h : isIdentifier key = true) : Says (.unset key) ["unset", key]

variable {shell : Shell} {history : History}

theorem IsPosix.ne_powershell (hs : shell.IsPosix) : shell ≠ .powershell := by
  rcases hs with rfl | rfl | rfl <;> decide

theorem IsPosix.statement?_set (hs : shell.IsPosix) (key value : String) (sensitive : Bool) :
    shell.statement? (.set key value sensitive) =
      some ("export " ++ key ++ "=" ++ shell.quote value) := by
  rcases hs with rfl | rfl | rfl <;> rfl

theorem IsPosix.words?_set (hs : shell.IsPosix) (key value : String) (sensitive : Bool) :
    shell.words? (.set key value sensitive) = some ["export", key ++ "=" ++ value] := by
  rcases hs with rfl | rfl | rfl <;> rfl

theorem IsPosix.words?_unset (hs : shell.IsPosix) (key : String) :
    shell.words? (.unset key) = some ["unset", key] := by
  rcases hs with rfl | rfl | rfl <;> rfl

theorem isIdentifier_of_assignment? {word key value : String}
    (h : assignment? word = some (key, value)) : isIdentifier key = true := by
  unfold assignment? at h
  split at h
  · cases h
  · dsimp only at h
    split at h
    · next hkey =>
      obtain ⟨rfl, -⟩ := Prod.mk.inj (Option.some.inj h)
      exact hkey
    · cases h

theorem Says.isIdentifier {c : Command} {words : List String} (h : Says c words) :
    isIdentifier c.key = true := by
  cases h with
  | set h => exact isIdentifier_of_assignment? h
  | unset h => exact h

theorem words?_says (hs : shell.IsPosix) {c : Command} (hc : c.target?.isSome = true)
    (hk : isIdentifier c.key = true) :
    ∃ words, shell.words? c = some words ∧ Says c words := by
  cases c with
  | skip key => cases hc
  | set key value sensitive =>
    exact ⟨_, hs.words?_set key value sensitive, .set (assignment?_append hk value)⟩
  | unset key => exact ⟨_, hs.words?_unset key, .unset hk⟩

theorem forall₂_says (hs : shell.IsPosix) (hact : ∀ c ∈ history, c.target?.isSome = true)
    (hk : ∀ c ∈ history, isIdentifier c.key = true) :
    List.Forall₂ Says history (history.filterMap shell.words?) := by
  induction history with
  | nil => exact .nil
  | cons c history ih =>
    obtain ⟨hcact, hact⟩ := List.forall_mem_cons.mp hact
    obtain ⟨hck, hk⟩ := List.forall_mem_cons.mp hk
    obtain ⟨words, hwords, hsays⟩ := words?_says hs hcact hck
    rw [List.filterMap_cons_some hwords]
    exact .cons hsays (ih hact hk)

theorem forall_isIdentifier_of_says {statements : List (List String)}
    (h : List.Forall₂ Says history statements) : ∀ c ∈ history, isIdentifier c.key = true := by
  induction h with
  | nil => exact fun _ hmem => absurd hmem List.not_mem_nil
  | cons h _ ih => exact List.forall_mem_cons.mpr ⟨h.isIdentifier, ih⟩

/-- What is skipped is not in the script. -/
theorem script_acting (shell : Shell) (history : History) :
    shell.script history.acting = shell.script history := by
  have hskip (c : Command) :
      (if c.target?.isSome = true then shell.statement? c else none) = shell.statement? c := by
    cases c <;> rfl
  rw [script, script, Shell.statements, Shell.statements, History.acting, List.filterMap_filter]
  simp only [hskip]

/-! ## A script that holds its own commands only -/

theorem exists_read_script_says_iff (hs : shell.IsPosix) (history : History) :
    (∃ statements, shell.read (shell.script history) = some statements ∧
        List.Forall₂ Says history.acting statements) ↔
      ∀ c ∈ history.acting, isIdentifier c.key = true := by
  constructor
  · rintro ⟨statements, -, hsays⟩
    exact forall_isIdentifier_of_says hsays
  · intro hk
    refine ⟨_, ?_, forall₂_says hs (fun c hc => (List.mem_filter.mp hc).2) hk⟩
    rw [← script_acting]
    exact read_script hs.ne_powershell hk

/-- The variables that commands act on are those that the declarations change. -/
theorem forall_acting_run_iff (p : String → Prop) (table : Table) (ds : List Declaration) :
    (∀ c ∈ (run table ds).2.acting, p c.key) ↔ ∀ d ∈ ds, ∀ key ∈ d.target?, p key := by
  have htargets : (∀ c ∈ (run table ds).2.acting, p c.key) ↔
      ∀ target ∈ (run table ds).2.map Command.target?, ∀ key ∈ target, p key := by
    rw [List.forall_mem_map, History.acting]
    simp only [List.mem_filter, and_imp]
    refine forall₂_congr fun c _ => ?_
    cases c <;> simp [Command.target?, Command.key]
  rw [htargets, Reaching.map_target?_run, List.forall_mem_map]

/--
**A script holds its own commands only if the names are such as shells take, and just then.**

It is read as one simple command for each variable that is set or removed, in order, with the name
and the value of the variable. The values make no difference, nor do the names in declarations that
are skipped.
-/
theorem read_script_says_iff (hs : shell.IsPosix) {source : Source} {ambient : Environment}
    (h : source.snapshot = .ok ambient) (ds : List Declaration) :
    ∃ o, evaluate ds source = .ok o ∧
      ((∃ statements, shell.read (shell.script o.history) = some statements ∧
          List.Forall₂ Says o.history.acting statements) ↔
        ∀ d ∈ ds, ∀ key ∈ d.target?, isIdentifier key = true) := by
  refine ⟨_, evaluate_eq_ok h ds, ?_⟩
  rw [exists_read_script_says_iff hs]
  exact forall_acting_run_iff (isIdentifier · = true) (.ofEnvironment ambient) ds

/-- A value that looks like commands, a variable that is removed, and a skipped one with a name that
no shell takes. -/
theorem read_script_says_iff_mixed :
    let ds : List Declaration := [{ key := "A", value := "';date\n#" }, .remove "HOME",
      { key := "B;C", value := "", options := { skipIfEmpty := true } }]
    Source.empty.snapshot = .ok ∅ ∧
      ∃ o, evaluate ds .empty = .ok o ∧
        ∃ statements, sh.read (sh.script o.history) = some statements ∧
          List.Forall₂ Says o.history.acting statements := by
  intro ds
  have h : Source.empty.snapshot = .ok ∅ := rfl
  obtain ⟨o, ho, hiff⟩ := read_script_says_iff (.inr (.inr rfl)) h ds
  refine ⟨h, o, ho, hiff.mpr ?_⟩
  rw [List.forall_mem_cons, List.forall_mem_cons, List.forall_mem_singleton]
  refine ⟨?_, ?_, ?_⟩ <;> rintro _ ⟨⟩ <;> decide

/-! ## Names that carry commands -/

/-- A name that ends the statement it stands in, and brings a statement along. -/
def smuggling (args : List String) : String :=
  "A;" ++ String.join (args.map (· ++ " ")) ++ ";B"

theorem reads_semicolon (statements : List (List String)) (words : List String)
    (word : Option (List Char)) :
    Reads shell { statements, words, word } [';']
      (Reader.endStatement { statements, words, word }) := by
  refine reads_singleton ?_
  simp [step, endsStatement, show isPlain ';' = false by decide]

/-- The name ends the statement that exports it, and the command behind it is a statement as well. -/
theorem reads_smuggling {args : List String} (hne : args ≠ [])
    (hargs : ∀ word ∈ args, IsBareWord word) :
    Reads shell {} ("export A;".toList ++ (args.flatMap fun word => word.toList ++ [' ']) ++ [';'])
      { statements := [["export", "A"], args] } := by
  have hexport : Reads shell {} ("export".toList ++ [' ']) { words := ["export"] } :=
    reads_argument (isBareWord_of_all (by decide) (by decide)) []
  have hname : Reads shell { words := ["export"] } "A".toList
      { words := ["export"], word := some ['A'] } :=
    reads_bareWord (isBareWord_of_all (by decide) (by decide)) rfl
  have hfirst : Reads shell { words := ["export"], word := some ['A'] } [';']
      { statements := [["export", "A"]] } := reads_semicolon [] ["export"] (some ['A'])
  have hcommand : Reads shell { statements := [["export", "A"]] }
      (args.flatMap fun word => word.toList ++ [' '])
      { statements := [["export", "A"]], words := args } := reads_arguments hargs []
  have hsecond : Reads shell { statements := [["export", "A"]], words := args } [';']
      { statements := [["export", "A"], args] } := by
    have hend : Reads shell _ _ _ := reads_semicolon [["export", "A"]] args none
    simpa [Reader.endStatement, Reader.endWord, hne] using hend
  exact (((hexport.append hname).append hfirst).append hcommand).append hsecond

/-- **Any command can come along with a name.** The declaration of that name is well formed, and the
script holds the command as a statement of its own. -/
theorem read_script_smuggles (hs : shell.IsPosix) {args : List String} (hne : args ≠ [])
    (hargs : ∀ word ∈ args, IsBareWord word) (value : String) (sensitive : Bool) :
    Declaration.isVariableKey (smuggling args) = true ∧
      shell.read (shell.script [.set (smuggling args) value sensitive]) =
        some [["export", "A"], args, ["B=" ++ value]] := by
  have htext : (shell.script [.set (smuggling args) value sensitive]).toList =
      "export A;".toList ++ (args.flatMap fun word => word.toList ++ [' ']) ++ [';'] ++
        ("B=".toList ++ (shell.quote value).toList ++ ['\n']) := by
    rw [script_cons_of_some (hs.statement?_set _ value sensitive)]
    simp [smuggling, List.flatMap_map, script, Shell.statements]
  have hname : IsBareWord "B=" := isBareWord_of_all (by decide) (by decide)
  have hassign (r : Reader) (hr : r.quoting = .bare) :
      Reads shell r ("B=".toList ++ (shell.quote value).toList)
        (r.extend ("B=".toList ++ value.toList)) := by
    have hvalue := reads_quote hs.ne_powershell (r := r.extend "B=".toList) hr value
    rw [Reader.extend_extend] at hvalue
    exact (reads_bareWord hname hr).append hvalue
  have hrest : Reads shell { statements := [["export", "A"], args] }
      ("B=".toList ++ (shell.quote value).toList ++ ['\n'])
      { statements := [["export", "A"], args, ["B=" ++ value]] } := by
    have h : Reads shell { statements := [["export", "A"], args] } _ _ :=
      reads_statement (List.forall_mem_nil IsBareWord) hassign
    rw [String.ofList_append, String.ofList_toList, String.ofList_toList] at h
    exact h
  constructor
  · rw [Declaration.isVariableKey_iff]
    refine ⟨fun h => ?_, fun h => ?_⟩ <;>
      simpa [smuggling, optionsKey] using congrArg String.toList h
  · have hall := (reads_smuggling hne hargs).append hrest
    rw [← htext] at hall
    unfold Reads at hall
    rw [read, hall]
    simp [Reader.endStatement, Reader.endWord]

/-- A key that is read as the name of a variable. The one declaration has one command, but the script
holds three, and one of them is `date`. -/
theorem script_holds_date :
    let d : Declaration := { key := "A;date ;B", value := "x" }
    Declaration.ofRaw [(.string "A;date ;B", .string "x")] = .ok d ∧
      ∃ o, evaluate [d] .empty = .ok o ∧ o.history = [.set "A;date ;B" "x" false] ∧
        sh.read (sh.script o.history) = some [["export", "A"], ["date"], ["B=x"]] := by
  intro d
  have hdate : ∀ word ∈ ["date"], IsBareWord word :=
    List.forall_mem_singleton.mpr (isBareWord_of_all (by decide) (by decide))
  have hhistory : (outcome [d] ∅).history = [.set "A;date ;B" "x" false] := by
    have hcommand (lookup : String → Option Expansion.Binding) :
        d.command lookup = .set d.key (Expansion.expand lookup "x").value
          (Expansion.expand lookup "x").sensitive := rfl
    show [d.command _] = _
    rw [hcommand, Expansion.expand_of_not_mem (by decide)]
  refine ⟨rfl, _, rfl, hhistory, ?_⟩
  show sh.read (sh.script (outcome [d] ∅).history) = _
  rw [hhistory]
  exact (read_script_smuggles (.inr (.inr rfl)) (by simp) hdate "x" false).2

end Shell

end OrderedEnv
