import Mathlib.Data.List.Basic
import OrderedEnv.Shell

/-!
# A script means what its history means

`Shell.script` writes a history as the statements of a shell. Here is the other side: how a shell
reads such a text, and what it then does. The statements that are read are those that were written
(`read_script`), and to carry them out is to replay the history (`execute_script`).

## Reading

A shell goes over the text one character at a time. Between single quotes every character stands for
itself; only fish takes a backslash there as an escape, in front of a backslash or a quote. Outside
quotes a backslash makes the next character stand for itself, blanks end a word, and a line break or
one of `;`, `&` and `|` ends a statement. Pieces that touch make up one word.

`Reads shell r text r'` says that a text takes a reader from one state to another. Whatever is
written is put together from short texts, and so is the way the reader goes over it. One wrong quote
would swallow the rest of the text, so the state in front of each statement says that no quotes are
open and no word is under way.
-/

namespace OrderedEnv.Shell

/-! ## The state of a reader -/

/-- Whether the next character stands in quotes. -/
inductive Quoting where
  | bare
  /-- Behind a backslash outside quotes. -/
  | escaped
  /-- Between single quotes. -/
  | quoted
  /-- Behind a backslash between single quotes, in fish. -/
  | quotedEscaped
  deriving DecidableEq, Repr

/-- What was read so far. -/
structure Reader where
  /-- The statements that are complete, each with its words. -/
  statements : List (List String) := []
  /-- The complete words of the statement that is under way. -/
  words : List String := []
  /-- The characters of the word that is under way, if there is one. -/
  word : Option (List Char) := none
  quoting : Quoting := .bare
  deriving DecidableEq, Repr

namespace Reader

/-- More characters in the word that is under way. If there is none, it begins. -/
def extend (r : Reader) (cs : List Char) : Reader := { r with word := some (r.word.getD [] ++ cs) }

/-- The word is complete. -/
def endWord (r : Reader) : Reader :=
  match r.word with
  | none => r
  | some cs => { r with words := r.words ++ [String.ofList cs], word := none }

/-- The statement is complete. One without words is none. -/
def endStatement (r : Reader) : Reader :=
  if r.endWord.words.isEmpty then r.endWord
  else { r.endWord with statements := r.statements ++ [r.endWord.words], words := [] }

@[simp] theorem extend_extend (r : Reader) (a b : List Char) :
    (r.extend a).extend b = r.extend (a ++ b) := by
  simp [extend]

end Reader

/-! ## Reading a text -/

/-- The characters that stand for themselves outside quotes. Of the others, most are given a meaning
by some shell. -/
def isPlain (c : Char) : Bool := c.isAlphanum || "_-=./:,+@".toList.contains c

/-- The characters that end a statement outside quotes. -/
def endsStatement (c : Char) : Bool := c = '\n' || c = ';' || c = '&' || c = '|'

/-- Reads one character, unless it has a meaning outside quotes that is none of those above. -/
def step (shell : Shell) (r : Reader) (c : Char) : Option Reader :=
  match r.quoting with
  | .bare =>
    if isPlain c then some (r.extend [c])
    else if c = '\'' then some { r.extend [] with quoting := .quoted }
    else if c = '\\' then some { r with quoting := .escaped }
    else if c = ' ' || c = '\t' then some r.endWord
    else if endsStatement c then some r.endStatement
    else none
  | .escaped => some { r.extend [c] with quoting := .bare }
  | .quoted =>
    if c = '\'' then some { r with quoting := .bare }
    else if c = '\\' && shell = .fish then some { r with quoting := .quotedEscaped }
    else some (r.extend [c])
  | .quotedEscaped =>
    some { r.extend (if c = '\\' || c = '\'' then [c] else ['\\', c]) with quoting := .quoted }

/-- The statements in a text. A text that ends in quotes or behind a backslash is not complete. -/
def read (shell : Shell) (text : String) : Option (List (List String)) := do
  let r ← text.toList.foldlM (step shell) {}
  if r.quoting = .bare then some r.endStatement.statements else none

/-! ## Carrying out statements -/

/-- The name of a variable that every shell takes: a letter or `_`, then letters, digits and `_`. -/
def isIdentifier (key : String) : Bool :=
  match key.toList with
  | [] => false
  | c :: cs => (c.isAlpha || c = '_') && cs.all fun c => c.isAlphanum || c = '_'

/-- The name and the value in a word such as `HOME=/root`. -/
def assignment? (word : String) : Option (String × String) :=
  let key := String.ofList (word.toList.takeWhile (· ≠ '='))
  match word.toList.dropWhile (· ≠ '=') with
  | [] => none
  | _ :: value => if isIdentifier key then some (key, String.ofList value) else none

/-- Carries out a statement that sets or removes a variable, and no other. -/
def perform (shell : Shell) (e : Environment) (statement : List String) : Option Environment :=
  match shell, statement with
  | .fish, ["set", "-gx", key, value] => if isIdentifier key then some (e.insert key value) else none
  | .fish, ["set", "-e", key] => if isIdentifier key then some (e.erase key) else none
  | .bash, ["export", word] | .zsh, ["export", word] | .sh, ["export", word] =>
    (assignment? word).map fun (key, value) => e.insert key value
  | .bash, ["unset", key] | .zsh, ["unset", key] | .sh, ["unset", key] =>
    if isIdentifier key then some (e.erase key) else none
  | _, _ => none

/-- Reads a text and carries out its statements in order. -/
def execute (shell : Shell) (e : Environment) (text : String) : Option Environment := do
  (← read shell text).foldlM (perform shell) e

/-! ## Going over a text -/

/-- A text takes a reader from one state to another. -/
def Reads (shell : Shell) (r : Reader) (cs : List Char) (r' : Reader) : Prop :=
  cs.foldlM (step shell) r = some r'

section

variable {shell : Shell} {r r' r'' : Reader}

theorem Reads.append {cs ds : List Char} (h : Reads shell r cs r') (h' : Reads shell r' ds r'') :
    Reads shell r (cs ++ ds) r'' := by
  unfold Reads at *
  rw [List.foldlM_append, h]
  exact h'

theorem reads_nil (r : Reader) : Reads shell r [] r := rfl

theorem reads_singleton {c : Char} (h : step shell r c = some r') : Reads shell r [c] r' := by
  simp [Reads, h]

/-- Plain characters go into the word as they are. -/
theorem reads_plain (hr : r.quoting = .bare) (c : Char) (cs : List Char)
    (h : ∀ x ∈ c :: cs, isPlain x = true) : Reads shell r (c :: cs) (r.extend (c :: cs)) := by
  induction cs generalizing r c with
  | nil =>
    refine reads_singleton ?_
    rw [step, hr]
    exact if_pos (h c (by simp))
  | cons d ds ih =>
    have hc : Reads shell r [c] (r.extend [c]) := by
      refine reads_singleton ?_
      rw [step, hr]
      exact if_pos (h c (by simp))
    have hds := ih (r := r.extend [c]) hr d fun x hx => h x (List.mem_cons_of_mem c hx)
    rw [Reader.extend_extend] at hds
    exact hc.append hds

/-- A character that is neither a quote nor an escape is read between quotes as it is. -/
theorem step_quoted {c : Char} (hr : r.quoting = .quoted) (hquote : c ≠ '\'')
    (hescape : ¬(c = '\\' ∧ shell = .fish)) : step shell r c = some (r.extend [c]) := by
  simp only [step, hr, if_neg hquote]
  rw [if_neg (by simpa using hescape)]

theorem reads_posixChar (hs : shell ≠ .fish) (hr : r.quoting = .quoted)
    (hw : r.word.isSome = true) (c : Char) : Reads shell r (posixChar c) (r.extend [c]) := by
  unfold posixChar
  by_cases hc : c = '\''
  · -- the quotes are closed, the quote stands escaped outside, and they are opened again
    obtain ⟨statements, words, word, quoting⟩ := r
    obtain ⟨w, rfl⟩ := Option.isSome_iff_exists.mp hw
    obtain rfl : quoting = .quoted := hr
    rw [if_pos hc, hc]
    simp [Reads, step, Reader.extend, show isPlain '\'' = false by decide,
      show isPlain '\\' = false by decide]
  · rw [if_neg hc]
    exact reads_singleton (step_quoted hr hc fun h => hs h.2)

theorem reads_fishChar (hr : r.quoting = .quoted) (c : Char) :
    Reads .fish r (fishChar c) (r.extend [c]) := by
  unfold fishChar
  by_cases hc : c = '\\' ∨ c = '\''
  · -- the escape is taken off
    have hescape : step .fish r '\\' = some { r with quoting := .quotedEscaped } := by
      simp [step, hr]
    rw [if_pos (by simpa using hc)]
    refine (reads_singleton hescape).append (reads_singleton ?_)
    simp only [step]
    rw [if_pos (by simpa using hc)]
    simp [Reader.extend, hr]
  · rw [if_neg (by simpa using hc)]
    exact reads_singleton (step_quoted hr (fun h => hc (.inr h)) fun h => hc (.inl h.1))

/-- What a character is written as is read between quotes as that character. -/
theorem reads_quotedChar (hs : shell ≠ .powershell) (hr : r.quoting = .quoted)
    (hw : r.word.isSome = true) (c : Char) :
    Reads shell r (shell.quotedChar c) (r.extend [c]) := by
  cases shell with
  | fish => exact reads_fishChar hr c
  | powershell => exact absurd rfl hs
  | bash => exact reads_posixChar (by decide) hr hw c
  | zsh => exact reads_posixChar (by decide) hr hw c
  | sh => exact reads_posixChar (by decide) hr hw c

theorem reads_quotedChars (hs : shell ≠ .powershell) (hr : r.quoting = .quoted)
    (hw : r.word.isSome = true) (cs : List Char) :
    Reads shell r (cs.flatMap shell.quotedChar) (r.extend cs) := by
  induction cs generalizing r with
  | nil =>
    obtain ⟨w, hw⟩ := Option.isSome_iff_exists.mp hw
    have hnil : r.extend [] = r := by simp [Reader.extend, hw]; rw [← hw]
    rw [hnil]
    exact reads_nil r
  | cons c cs ih =>
    have hcs := ih (r := r.extend [c]) hr rfl
    rw [Reader.extend_extend] at hcs
    exact (reads_quotedChar hs hr hw c).append hcs

/-- **A value in quotes is read as that value, whatever it is.** -/
theorem reads_quote (hs : shell ≠ .powershell) (hr : r.quoting = .bare) (value : String) :
    Reads shell r (shell.quote value).toList (r.extend value.toList) := by
  have hopen : step shell r '\'' = some { r.extend [] with quoting := .quoted } := by
    simp [step, hr, show isPlain '\'' = false by decide]
  have hbody := reads_quotedChars hs (r := { r.extend [] with quoting := .quoted }) rfl rfl
    value.toList
  have hclose : step shell ({ r.extend [] with quoting := .quoted }.extend value.toList) '\'' =
      some (r.extend value.toList) := by
    simp [step, Reader.extend, hr]
  rw [quote, String.toList_ofList]
  exact (reads_singleton hopen).append (hbody.append (reads_singleton hclose))

/-! ## Reading a statement back -/

/-- A word that is written without quotes. -/
structure IsBareWord (word : String) : Prop where
  ne : word.toList ≠ []
  plain : ∀ c ∈ word.toList, isPlain c = true

theorem isBareWord_of_all {word : String} (hne : word.toList ≠ [])
    (h : word.toList.all isPlain = true) : IsBareWord word :=
  ⟨hne, List.all_eq_true.mp h⟩

theorem forall_of_isIdentifier {key : String} (h : isIdentifier key = true) :
    key.toList ≠ [] ∧ ∀ c ∈ key.toList, c.isAlphanum = true ∨ c = '_' := by
  unfold isIdentifier at h
  cases hk : key.toList with
  | nil => simp [hk] at h
  | cons c cs =>
    rw [hk] at h
    simp only [Bool.and_eq_true, Bool.or_eq_true, decide_eq_true_eq, List.all_eq_true] at h
    refine ⟨by simp, fun x hx => ?_⟩
    rcases List.mem_cons.mp hx with rfl | hx
    · refine h.1.imp_left fun halpha => ?_
      rw [Char.isAlphanum, halpha, Bool.true_or]
    · exact h.2 x hx

theorem isBareWord_of_isIdentifier {key : String} (h : isIdentifier key = true) :
    IsBareWord key where
  ne := (forall_of_isIdentifier h).1
  plain := by
    intro c hc
    rcases (forall_of_isIdentifier h).2 c hc with ha | rfl
    · rw [isPlain, ha, Bool.true_or]
    · decide

theorem reads_bareWord {word : String} (h : IsBareWord word) (hr : r.quoting = .bare) :
    Reads shell r word.toList (r.extend word.toList) := by
  cases hw : word.toList with
  | nil => exact absurd hw h.ne
  | cons c cs => exact reads_plain hr c cs (hw ▸ h.plain)

variable {statements : List (List String)}

/-- A bare word and a blank make up one word of a statement. -/
theorem reads_argument {word : String} (h : IsBareWord word) (words : List String) :
    Reads shell { statements, words } (word.toList ++ [' '])
      { statements, words := words ++ [word] } := by
  refine (reads_bareWord h rfl).append (reads_singleton ?_)
  simp [step, Reader.extend, Reader.endWord, show isPlain ' ' = false by decide]

theorem reads_arguments {args : List String} (h : ∀ word ∈ args, IsBareWord word)
    (words : List String) :
    Reads shell { statements, words } (args.flatMap fun word => word.toList ++ [' '])
      { statements, words := words ++ args } := by
  induction args generalizing words with
  | nil =>
    rw [List.append_nil]
    exact reads_nil _
  | cons word args ih =>
    have hrest := ih (fun x hx => h x (List.mem_cons_of_mem word hx)) (words ++ [word])
    rw [List.append_assoc] at hrest
    exact (reads_argument (h word List.mem_cons_self) words).append hrest

/-- **A statement is read as its words.** All but the last are bare. The last may be written in any
way that is read as the word. -/
theorem reads_statement {args : List String} (hargs : ∀ word ∈ args, IsBareWord word)
    {written word : List Char}
    (hlast : ∀ r : Reader, r.quoting = .bare → Reads shell r written (r.extend word)) :
    Reads shell { statements } ((args.flatMap fun word => word.toList ++ [' ']) ++ written ++ ['\n'])
      { statements := statements ++ [args ++ [String.ofList word]] } := by
  refine ((reads_arguments hargs []).append (hlast _ rfl)).append (reads_singleton ?_)
  simp [step, endsStatement, Reader.extend, Reader.endStatement, Reader.endWord,
    show isPlain '\n' = false by decide]

end

/-- The words of the statement of a command. -/
def words? (shell : Shell) : Command → Option (List String)
  | .set key value _ =>
    match shell with
    | .fish => some ["set", "-gx", key, value]
    | .powershell => none
    | .bash | .zsh | .sh => some ["export", key ++ "=" ++ value]
  | .unset key =>
    match shell with
    | .fish => some ["set", "-e", key]
    | .powershell => none
    | .bash | .zsh | .sh => some ["unset", key]
  | .skip _ => none

section

variable {shell : Shell} {statements : List (List String)} {key : String}

theorem reads_export (hs : shell ≠ .powershell) (hk : isIdentifier key = true) (value : String) :
    Reads shell { statements } (("export " ++ key ++ "=" ++ shell.quote value).toList ++ ['\n'])
      { statements := statements ++ [["export", key ++ "=" ++ value]] } := by
  have hargs : ∀ word ∈ ["export"], IsBareWord word := by
    simpa using isBareWord_of_all (by decide) (by decide)
  have hlast (r : Reader) (hr : r.quoting = .bare) :
      Reads shell r (key.toList ++ ['='] ++ (shell.quote value).toList)
        (r.extend (key.toList ++ ['='] ++ value.toList)) := by
    have hkey : Reads shell r key.toList (r.extend key.toList) :=
      reads_bareWord (isBareWord_of_isIdentifier hk) hr
    have hsign : Reads shell (r.extend key.toList) ['='] ((r.extend key.toList).extend ['=']) :=
      reads_plain (r := r.extend key.toList) hr '=' [] (by simp [show isPlain '=' = true by decide])
    have hvalue := reads_quote hs (r := (r.extend key.toList).extend ['=']) hr value
    rw [Reader.extend_extend] at hsign hvalue
    rw [Reader.extend_extend] at hvalue
    exact (hkey.append hsign).append hvalue
  have h : Reads shell { statements } _ _ := reads_statement hargs hlast
  simpa [String.ofList_append, String.append_assoc] using h

theorem reads_unset (hk : isIdentifier key = true) :
    Reads shell { statements } (("unset " ++ key).toList ++ ['\n'])
      { statements := statements ++ [["unset", key]] } := by
  have hargs : ∀ word ∈ ["unset"], IsBareWord word := by
    simpa using isBareWord_of_all (by decide) (by decide)
  have h : Reads shell { statements } _ _ := reads_statement hargs fun r hr =>
    reads_bareWord (isBareWord_of_isIdentifier hk) hr
  simpa using h

theorem reads_setGlobal (hs : shell ≠ .powershell) (hk : isIdentifier key = true)
    (value : String) :
    Reads shell { statements } (("set -gx " ++ key ++ " " ++ shell.quote value).toList ++ ['\n'])
      { statements := statements ++ [["set", "-gx", key, value]] } := by
  have hargs : ∀ word ∈ ["set", "-gx", key], IsBareWord word := by
    simpa using ⟨isBareWord_of_all (by decide) (by decide),
      isBareWord_of_all (by decide) (by decide), isBareWord_of_isIdentifier hk⟩
  have h : Reads shell { statements } _ _ := reads_statement hargs fun r hr =>
    reads_quote hs hr value
  simpa using h

theorem reads_setErase (hk : isIdentifier key = true) :
    Reads shell { statements } (("set -e " ++ key).toList ++ ['\n'])
      { statements := statements ++ [["set", "-e", key]] } := by
  have hargs : ∀ word ∈ ["set", "-e"], IsBareWord word := by
    simpa using ⟨isBareWord_of_all (by decide) (by decide),
      isBareWord_of_all (by decide) (by decide)⟩
  have h : Reads shell { statements } _ _ := reads_statement hargs fun r hr =>
    reads_bareWord (isBareWord_of_isIdentifier hk) hr
  simpa using h

/-- What is written for a command is read as its words. -/
theorem reads_command {c : Command} {text : String} {words : List String}
    (hs : shell ≠ .powershell) (hk : isIdentifier c.key = true)
    (htext : shell.statement? c = some text) (hwords : shell.words? c = some words) :
    Reads shell { statements } (text.toList ++ ['\n']) { statements := statements ++ [words] } := by
  cases c with
  | skip key => cases htext
  | set key value sensitive =>
    obtain rfl := Option.some.inj htext
    cases shell with
    | powershell => exact absurd rfl hs
    | fish =>
      obtain rfl := Option.some.inj hwords
      exact reads_setGlobal hs hk value
    | bash | zsh | sh =>
      obtain rfl := Option.some.inj hwords
      exact reads_export hs hk value
  | unset key =>
    obtain rfl := Option.some.inj htext
    cases shell with
    | powershell => exact absurd rfl hs
    | fish =>
      obtain rfl := Option.some.inj hwords
      exact reads_setErase hk
    | bash | zsh | sh =>
      obtain rfl := Option.some.inj hwords
      exact reads_unset hk

/-- A command has words just where it has a statement, and otherwise it does nothing. -/
theorem words?_cases (hs : shell ≠ .powershell) (c : Command) :
    (∃ text words, shell.statement? c = some text ∧ shell.words? c = some words) ∨
      (shell.statement? c = none ∧ shell.words? c = none ∧ ∀ e : Environment, e.apply c = e) := by
  cases c with
  | set key value sensitive =>
    cases shell with
    | powershell => exact absurd rfl hs
    | bash | zsh | fish | sh => exact .inl ⟨_, _, rfl, rfl⟩
  | unset key =>
    cases shell with
    | powershell => exact absurd rfl hs
    | bash | zsh | fish | sh => exact .inl ⟨_, _, rfl, rfl⟩
  | skip key => exact .inr ⟨rfl, rfl, fun _ => rfl⟩

/-! ## Reading a script back -/

theorem script_cons_of_some {c : Command} {text : String} (h : shell.statement? c = some text)
    (history : History) : shell.script (c :: history) = text ++ "\n" ++ shell.script history := by
  simp [script, Shell.statements, h]

theorem script_cons_of_none {c : Command} (h : shell.statement? c = none) (history : History) :
    shell.script (c :: history) = shell.script history := by
  simp [script, Shell.statements, h]

theorem reads_script (hs : shell ≠ .powershell) {history : History}
    (hk : ∀ c ∈ history, isIdentifier c.key = true) :
    Reads shell { statements } (shell.script history).toList
      { statements := statements ++ history.filterMap shell.words? } := by
  induction history generalizing statements with
  | nil =>
    rw [List.filterMap_nil, List.append_nil]
    exact reads_nil _
  | cons c history ih =>
    have hrest (done : List (List String)) : Reads shell { statements := done } _ _ :=
      ih fun x hx => hk x (List.mem_cons_of_mem c hx)
    rcases words?_cases hs c with ⟨text, words, htext, hwords⟩ | ⟨htext, hwords, -⟩
    · have hc : Reads shell { statements } _ _ :=
        reads_command hs (hk c List.mem_cons_self) htext hwords
      have happend := hc.append (hrest (statements ++ [words]))
      rw [script_cons_of_some htext, List.filterMap_cons_some hwords]
      simpa using happend
    · rw [script_cons_of_none htext, List.filterMap_cons_none hwords]
      exact hrest statements

/-- **The statements that are read are those that were written.** -/
theorem read_script (hs : shell ≠ .powershell) {history : History}
    (hk : ∀ c ∈ history, isIdentifier c.key = true) :
    shell.read (shell.script history) = some (history.filterMap shell.words?) := by
  have h : Reads shell {} _ _ := reads_script hs hk
  unfold Reads at h
  rw [read, h]
  simp [Reader.endStatement, Reader.endWord]

/-! ## Carrying out a script -/

theorem assignment?_append (hk : isIdentifier key = true) (value : String) :
    assignment? (key ++ "=" ++ value) = some (key, value) := by
  have hne : ∀ c ∈ key.toList, decide (c ≠ '=') = true := by
    intro c hc
    rcases (forall_of_isIdentifier hk).2 c hc with ha | rfl
    · refine decide_eq_true ?_
      rintro rfl
      exact absurd ha (by decide)
    · decide
  have hword : (key ++ "=" ++ value).toList = key.toList ++ '=' :: value.toList := by simp
  unfold assignment?
  rw [hword, List.takeWhile_append_of_pos hne, List.dropWhile_append_of_pos hne]
  simp [hk]

/-- The statement of a command does what the command does. -/
theorem perform_words {c : Command} {words : List String} (hk : isIdentifier c.key = true)
    (hwords : shell.words? c = some words) (e : Environment) :
    shell.perform e words = some (e.apply c) := by
  cases c with
  | skip key => cases hwords
  | set key value sensitive =>
    have hassign : assignment? (key ++ "=" ++ value) = some (key, value) :=
      assignment?_append hk value
    cases shell with
    | powershell => cases hwords
    | fish =>
      obtain rfl := Option.some.inj hwords
      exact if_pos hk
    | bash | zsh | sh =>
      obtain rfl := Option.some.inj hwords
      simp [perform, hassign, Environment.apply]
  | unset key =>
    cases shell with
    | powershell => cases hwords
    | bash | zsh | fish | sh =>
      obtain rfl := Option.some.inj hwords
      exact if_pos hk

theorem foldlM_perform (hs : shell ≠ .powershell) {history : History}
    (hk : ∀ c ∈ history, isIdentifier c.key = true) (e : Environment) :
    (history.filterMap shell.words?).foldlM shell.perform e = some (e.replay history) := by
  induction history generalizing e with
  | nil => rfl
  | cons c history ih =>
    have hrest := ih fun x hx => hk x (List.mem_cons_of_mem c hx)
    rcases words?_cases hs c with ⟨text, words, -, hwords⟩ | ⟨-, hwords, hc⟩
    · rw [List.filterMap_cons_some hwords, List.foldlM_cons,
        perform_words (hk c List.mem_cons_self) hwords]
      exact hrest (e.apply c)
    · have hreplay : e.replay (c :: history) = (e.apply c).replay history := rfl
      rw [List.filterMap_cons_none hwords, hreplay, hc]
      exact hrest e

end

/--
**A script does what its history does.**

This holds for the shells of the POSIX family and for fish, for any values at all, as long as every
variable has a name that shells take.
-/
theorem execute_script {shell : Shell} (hs : shell ≠ .powershell) {history : History}
    (hk : ∀ c ∈ history, isIdentifier c.key = true) (e : Environment) :
    shell.execute e (shell.script history) = some (e.replay history) := by
  rw [execute, read_script hs hk]
  exact foldlM_perform hs hk e

/-- Values that end in a backslash, span lines, hold quotes and nothing else, or look like
statements. -/
theorem execute_script_quotes :
    let history : History :=
      [.set "A" "it's\\" false, .unset "HOME", .set "B_1" "''\\'" true, .skip "S",
        .set "C" "\nunset A; $B `C`\n\\" false, .set "A" "" false]
    let e : Environment := .ofPairs [("HOME", "/root"), ("S", "s")]
    (∀ c ∈ history, isIdentifier c.key = true) ∧
      fish.execute e (fish.script history) = some (e.replay history) ∧
      bash.execute e (bash.script history) = some (e.replay history) := by
  intro history e
  have hk : ∀ c ∈ history, isIdentifier c.key = true := by decide
  exact ⟨hk, execute_script (by decide) hk e, execute_script (by decide) hk e⟩

end OrderedEnv.Shell
