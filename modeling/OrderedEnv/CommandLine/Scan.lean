import OrderedEnv.CommandLine.Setting

/-!
# Scanning the command line

The words of a command line are taken from left to right. `Level.scan` takes the options at the
start of them, for the words before the name of a request as for those behind it, and stops at the
first word that is neither an option nor the value of one.

The first thing that is wrong, or that asks for help, decides: what follows it is not looked at.
-/

namespace OrderedEnv

/-- The options that are known at one place of a command line. -/
structure Level where
  settings : List Setting
  /-- Words are taken as they are here, so an option that is not known is such a word. -/
  takesWords : Bool

/-- The settings that were given, the last one first. A flag has the empty word. -/
abbrev Given := List (Setting × Word)

/-- What a scan comes to. -/
inductive Scan where
  /-- The command line is not understood. -/
  | rejected
  /-- Help is asked for. -/
  | help
  /-- The version is asked for. -/
  | version
  /-- The options are read. `rest` starts with the first other word, `escaped` if `--` stands in
  front of it. -/
  | stopped (given : Given) (escaped : Bool) (rest : List Word)
  deriving DecidableEq, Repr

/-- One option in a word. -/
inductive Occurrence where
  /-- A known option, with the value that is written in the same word. -/
  | known (setting : Setting) (attached : Option Word)
  | unknown
  deriving DecidableEq, Repr

/-- What a word is. -/
inductive Shape where
  /-- The word `--`, behind which no options are read. -/
  | escape
  /-- The options in a word that starts with `-`. -/
  | options (occurrences : List Occurrence)
  /-- Any other word. -/
  | plain
  deriving DecidableEq, Repr

/-- The byte in front of an option. -/
def dash : UInt8 := 0x2D

/-- The byte between an option and its value. -/
def equals : UInt8 := 0x3D

namespace Level

/-! ## The options in a word -/

/-- The option of a name. -/
def byLong? (level : Level) (name : Word) : Option Setting :=
  level.settings.find? fun s => Word.ofText s.long = name

/-- The option of a letter. -/
def byShort? (level : Level) (letter : UInt8) : Option Setting :=
  level.settings.find? fun s => s.short?.map Char.toNat = some letter.toNat

/-- The option behind `--`. -/
def longOption (level : Level) (body : Word) : Occurrence :=
  match level.byLong? (body.takeWhile (· ≠ equals)), body.dropWhile (· ≠ equals) with
  | none, _ => .unknown
  | some setting, [] => .known setting none
  | some setting, _ :: value => .known setting (some value)

/-- The value behind a letter. -/
def attachedTo : Word → Option Word
  | [] => none
  | b :: bs => some (if b = equals then bs else b :: bs)

/-- The options behind `-`. The first one that takes a value takes what follows it. -/
def shortOptions (level : Level) : Word → List Occurrence
  | [] => []
  | b :: bs =>
    match level.byShort? b with
    | none => [.unknown]
    | some setting =>
      if setting.takesValue then [.known setting (attachedTo bs)]
      else .known setting none :: shortOptions level bs

/-- What a word is, if it is not the value of the option before it. -/
def shape (level : Level) : Word → Shape
  | [] => .plain
  | b :: bs =>
    if b ≠ dash then .plain
    else
      match bs with
      | [] => .plain
      | c :: cs =>
        if c = dash then
          if cs.isEmpty then .escape
          else
            match level.longOption cs with
            | .unknown => if level.takesWords then .plain else .options [.unknown]
            | known => .options [known]
        else if level.takesWords && !bs.all fun letter => (level.byShort? letter).isSome then .plain
        else .options (level.shortOptions bs)

/-! ## Scanning -/

/-- What the options in one word come to. -/
inductive Step where
  | rejected
  | help
  | version
  /-- The scan goes on, and the next word is a value if one is missing. -/
  | next (given : Given) (missing : Option Setting)
  deriving DecidableEq, Repr

/-- A setting that is given. Each may be given once, with a value it can have. -/
def note (given : Given) (setting : Setting) (value : Word) : Option Given :=
  if (given.lookup setting).isSome || !(setting.accepts value) then none
  else some ((setting, value) :: given)

/-- A flag that is given. -/
def noteFlag (given : Given) (setting : Setting) : Option Given :=
  if (given.lookup setting).isSome then none else some ((setting, []) :: given)

/-- Takes the options of one word in order. -/
def take (given : Given) : List Occurrence → Step
  | [] => .next given none
  | .unknown :: _ => .rejected
  | .known .help none :: _ => .help
  | .known .version none :: _ => .version
  | .known setting attached :: more =>
    match setting.takesValue, attached with
    | false, some _ => .rejected
    | false, none =>
      match noteFlag given setting with
      | some given => take given more
      | none => .rejected
    | true, some value =>
      match note given setting value with
      | some given => take given more
      | none => .rejected
    | true, none => .next given (some setting)

/-- Takes the options at the start of words. -/
def scanFrom (level : Level) (given : Given) (missing : Option Setting) : List Word → Scan
  | [] => if missing.isSome then .rejected else .stopped given false []
  | word :: rest =>
    match missing, level.shape word with
    | some setting, .plain =>
      match note given setting word with
      | some given => scanFrom level given none rest
      | none => .rejected
    | some _, _ => .rejected
    | none, .escape => .stopped given true rest
    | none, .plain => .stopped given false (word :: rest)
    | none, .options occurrences =>
      match take given occurrences with
      | .rejected => .rejected
      | .help => .help
      | .version => .version
      | .next given missing => scanFrom level given missing rest

/-- Takes the options at the start of a command line, or of what follows the name of a request. -/
def scan (level : Level) (words : List Word) : Scan := level.scanFrom [] none words

end Level

end OrderedEnv
