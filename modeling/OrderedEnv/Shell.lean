import OrderedEnv.History
import OrderedEnv.Text.Ascii

/-!
# Shells

The shells for which statements are written, and the statements that set and remove an environment
variable in each of them.

A value is always written between single quotes, where a shell replaces nothing. What a quote inside
the value becomes depends on the shell: the POSIX shells close the quotes, write an escaped quote and
open them again; fish escapes the quote, and the backslash too; PowerShell doubles the quote.
-/

namespace OrderedEnv

/-- A shell. -/
inductive Shell where
  | bash
  | zsh
  | fish
  | powershell
  | sh
  deriving DecidableEq, Repr

namespace Shell

/-! ## Names -/

/-- The name of a shell. -/
def name : Shell → String
  | .bash => "bash"
  | .zsh => "zsh"
  | .fish => "fish"
  | .powershell => "powershell"
  | .sh => "sh"

/-- The shell of a name in letters of either case. Only letters of ASCII have two cases here: no
other letter has a small form that occurs in a name. -/
def ofName? (text : String) : Option Shell :=
  let word := Text.asciiLower text
  if word = "bash" then some .bash
  else if word = "zsh" then some .zsh
  else if word = "fish" then some .fish
  else if word = "sh" then some .sh
  else if word = "powershell" || word = "pwsh" then some .powershell
  else none

/-- The message for a name that no shell has. -/
def unknownMessage (text : String) : String :=
  "unknown shell: " ++ text ++ ". Supported: bash, zsh, fish, sh, powershell"

/-- The shell whose name stands somewhere in the text, the POSIX shell if none does. -/
def ofText (text : String) : Shell :=
  let letters := (Text.asciiLower text).toList
  if Text.occursIn "zsh".toList letters then .zsh
  else if Text.occursIn "bash".toList letters then .bash
  else if Text.occursIn "fish".toList letters then .fish
  else .sh

/-- The shell of a program, by its whole name if it is one, else by what stands in it. -/
def ofProgram (name : String) : Shell := (ofName? name).getD (ofText name)

/-! ## Quoting -/

/-- A character of a value between the single quotes of a POSIX shell. -/
def posixChar (c : Char) : List Char := if c = '\'' then ['\'', '\\', '\'', '\''] else [c]

/-- A character of a value between the single quotes of fish. -/
def fishChar (c : Char) : List Char := if c = '\\' || c = '\'' then ['\\', c] else [c]

/-- A character of a value between the single quotes of PowerShell. -/
def powershellChar (c : Char) : List Char := if c = '\'' then ['\'', '\''] else [c]

/-- How a shell writes a character between single quotes. -/
def quotedChar : Shell → Char → List Char
  | .fish => fishChar
  | .powershell => powershellChar
  | .bash | .zsh | .sh => posixChar

/-- A value as one literal word. -/
def quote (shell : Shell) (value : String) : String :=
  String.ofList ('\'' :: value.toList.flatMap shell.quotedChar ++ ['\''])

/-! ## Statements -/

/-- The statement that sets a variable. -/
def exportStatement (shell : Shell) (key value : String) : String :=
  match shell with
  | .fish => "set -gx " ++ key ++ " " ++ shell.quote value
  | .powershell => "$env:" ++ key ++ " = " ++ shell.quote value
  | .bash | .zsh | .sh => "export " ++ key ++ "=" ++ shell.quote value

/-- The statement that removes a variable. -/
def unsetStatement (shell : Shell) (key : String) : String :=
  match shell with
  | .fish => "set -e " ++ key
  | .powershell => "Remove-Item Env:" ++ key ++ " -ErrorAction SilentlyContinue"
  | .bash | .zsh | .sh => "unset " ++ key

/-- The statement of a command. Skipping needs none. -/
def statement? (shell : Shell) : Command → Option String
  | .set key value _ => some (shell.exportStatement key value)
  | .unset key => some (shell.unsetStatement key)
  | .skip _ => none

/-- The statements of a history, in order. -/
def statements (shell : Shell) (history : History) : List String :=
  history.filterMap shell.statement?

/-- A script: every statement ends its line. -/
def script (shell : Shell) (history : History) : String :=
  String.join ((shell.statements history).map (· ++ "\n"))

end Shell

end OrderedEnv
