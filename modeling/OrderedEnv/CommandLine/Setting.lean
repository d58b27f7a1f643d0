import OrderedEnv.CommandLine.Request
import OrderedEnv.Text.Ascii

/-!
# Settings

The options of the command line: how each is written, what it takes, and which variable of the
environment stands in for it. Some belong to every request, the others to one.
-/

namespace OrderedEnv

/-- An argument of the command line, which need not be text. -/
abbrev Word := List UInt8

/-- The word that a text spells. -/
def Word.ofText (text : String) : Word := text.toUTF8.data.toList

/-- The text of a word, if it is one. -/
def Word.text? (word : Word) : Option String := String.fromUTF8? ⟨word.toArray⟩

/-- What an option sets. -/
inductive Setting where
  | logLevel
  | path
  | tool
  | help
  | version
  | clear
  | key
  | value
  | valueFile
  | noExpand
  | append
  | skipIfEmpty
  | sensitive
  | format
  | expand
  | sensitiveOnly
  | redact
  | shell
  deriving DecidableEq, Repr

namespace Setting

/-- The name behind `--`. -/
def long : Setting → String
  | .logLevel => "loglevel"
  | .path => "path"
  | .tool => "tool"
  | .help => "help"
  | .version => "version"
  | .clear => "clear"
  | .key => "key"
  | .value => "value"
  | .valueFile => "valuefile"
  | .noExpand => "no-expand"
  | .append => "append"
  | .skipIfEmpty => "skip-if-empty"
  | .sensitive => "sensitive"
  | .format => "format"
  | .expand => "expand"
  | .sensitiveOnly => "sensitive-only"
  | .redact => "redact"
  | .shell => "shell"

/-- The letter behind a single `-`. -/
def short? : Setting → Option Char
  | .path => some 'p'
  | .tool => some 't'
  | .help => some 'h'
  | .version => some 'V'
  | .key => some 'k'
  | .format => some 'f'
  | .shell => some 's'
  | _ => none

/-- The variable whose value is taken when the option is not given. -/
def variableName? : Setting → Option String
  | .logLevel => some "LOGLEVEL"
  | .path => some "ENVMAN_ENVSTORE_PATH"
  | .tool => some "ENVMAN_TOOLMODE"
  | _ => none

/-- The option is followed by a value. -/
def takesValue : Setting → Bool
  | .logLevel | .path | .key | .value | .valueFile | .format | .shell => true
  | _ => false

/-! ## Values -/

/-- The names of the levels of the log, which say nothing about what the tool does. -/
def logLevels : List String :=
  ["trace", "debug", "info", "warn", "warning", "error", "fatal", "panic"]

/-- The words that mean yes. -/
def yesWords : List String := ["y", "yes", "t", "true", "on", "1"]

/-- The words that mean no. -/
def noWords : List String := ["n", "no", "f", "false", "off", "0"]

/-- The meaning of a word that says yes or no, in letters of either case. -/
def flag? (word : Word) : Option Bool :=
  word.text?.bind fun text =>
    let text := Text.asciiLower text
    if yesWords.contains text then some true
    else if noWords.contains text then some false
    else none

/-- The format of a name. -/
def format? (word : Word) : Option OutputFormat :=
  word.text?.bind fun text =>
    if text = "plain" then some .plain
    else if text = "json" then some .json
    else none

/-- The shell of a name. -/
def shell? (word : Word) : Option Shell := word.text?.bind Shell.ofName?

/-- The word is one that the setting can have. -/
def accepts (setting : Setting) (word : Word) : Bool :=
  match setting with
  | .logLevel => (word.text?.map fun text => logLevels.contains (Text.asciiLower text)).getD false
  | .path | .valueFile => !word.isEmpty
  | .tool => (flag? word).isSome
  | .format => (format? word).isSome
  | .shell => (shell? word).isSome
  | _ => word.text?.isSome

end Setting

/-- The name of a request. -/
inductive Subcommand where
  | init
  | add
  | unset
  | clear
  | print
  | script
  | run
  deriving DecidableEq, Repr

namespace Subcommand

/-- The word on the command line. -/
def word : Subcommand → String
  | .init => "init"
  | .add => "add"
  | .unset => "unset"
  | .clear => "clear"
  | .print => "print"
  | .script => "export"
  | .run => "run"

/-- All names of requests. -/
def all : List Subcommand := [.init, .add, .unset, .clear, .print, .script, .run]

/-- The request of a word. -/
def ofWord? (found : Word) : Option Subcommand := all.find? fun s => Word.ofText s.word = found

/-- The settings of one request alone. -/
def settings : Subcommand → List Setting
  | .init => [.clear]
  | .add => [.key, .value, .valueFile, .noExpand, .append, .skipIfEmpty, .sensitive]
  | .unset => [.key]
  | .clear => []
  | .print => [.format, .expand, .sensitiveOnly, .redact]
  | .script => [.shell]
  | .run => []

end Subcommand

end OrderedEnv
