import OrderedEnv.Machine
import OrderedEnv.View

/-!
# Utilities

A fixture for tests: the tool does not need it, and no theorem is about it.

The small programs that every machine has, as far as they show what environment, arguments and input
a program gets.
-/

namespace OrderedEnv.Utility

/-- What a program leaves behind that wrote some bytes and succeeded, or failed. -/
def finishBytes (start : Start) (output : ByteArray) (success : Bool) : Finish :=
  ⟨output, "", .exited (if success then 0 else 1), start.files⟩

/-- What a program leaves behind that wrote a text and succeeded, or failed. -/
def finish (start : Start) (text : List Char) (success : Bool) : Finish :=
  finishBytes start (String.ofList text).toUTF8 success

/-! ## Escapes -/

/-- The character behind a backslash, where it stands for another one. -/
def escaped? : Char → Option Char
  | 'n' => some '\n'
  | 't' => some '\t'
  | 'r' => some '\x0d'
  | 'a' => some '\x07'
  | 'b' => some '\x08'
  | 'f' => some '\x0c'
  | 'v' => some '\x0b'
  | '\\' => some '\\'
  | _ => none

/-- Replaces the backslashes in a text. -/
def unescape : List Char → List Char
  | [] => []
  | ['\\'] => ['\\']
  | '\\' :: c :: cs =>
    match escaped? c with
    | some d => d :: unescape cs
    | none => '\\' :: c :: unescape cs
  | c :: cs => c :: unescape cs

/-! ## Writing -/

/-- Words with blanks between them. -/
def spaced (words : List String) : List Char := (" ".intercalate words).toList

/-- Writes its arguments on one line. -/
def echo : Program := fun start =>
  match start.arguments with
  | "-n" :: words => finish start (spaced words) true
  | words => finish start (spaced words ++ ['\n']) true

/-- Fills one copy of a format from the front of some words. -/
def fillOnce : List Char → List String → List Char × List String
  | [], words => ([], words)
  | '%' :: '%' :: cs, words =>
    let (text, rest) := fillOnce cs words
    ('%' :: text, rest)
  | '%' :: 's' :: cs, words =>
    let (text, rest) := fillOnce cs words.tail
    ((words.headD "").toList ++ text, rest)
  | '%' :: 'd' :: cs, words =>
    let (text, rest) := fillOnce cs words.tail
    ((words.headD "0").toList ++ text, rest)
  | c :: cs, words =>
    let (text, rest) := fillOnce cs words
    (c :: text, rest)

/-- Fills a format as often as it takes to use up all words. -/
def fill (format : List Char) : Nat → List String → List Char
  | 0, _ => []
  | n + 1, words =>
    let (text, rest) := fillOnce format words
    if rest.isEmpty || rest.length = words.length then text else text ++ fill format n rest

/-- Writes its arguments in a format. -/
def printf : Program := fun start =>
  match start.arguments with
  | [] => finish start [] false
  | format :: words => finish start (fill (unescape format.toList) (words.length + 1) words) true

/-! ## Reading -/

/-- Writes the content of files, or what it reads if no file is named. -/
def cat : Program := fun start =>
  match start.arguments with
  | [] => finishBytes start start.input true
  | names =>
    let found := names.map fun name =>
      if name = "-" then .ok start.input else start.files.read (.ofText name)
    finishBytes start
      (found.foldl (fun done content => done ++ content.toOption.getD .empty) .empty)
      (found.all Except.toBool)

/-- The lines of some bytes, without their ends. -/
def lines (content : ByteArray) : List (List UInt8) :=
  let parts := content.data.toList.splitOn 10
  if parts.getLast? = some [] then parts.dropLast else parts

/-- Writes the lines that it reads in the order of their bytes. -/
def sort : Program := fun start =>
  let sorted := (lines start.input).mergeSort fun left right => decide (left ≤ right)
  finishBytes start ⟨(sorted.flatMap fun line => line ++ [10]).toArray⟩ true

/-- Counts the bytes or the lines that it reads. -/
def wc : Program := fun start =>
  let counted (n : Nat) := finish start ((toString n).toList ++ ['\n']) true
  match start.arguments with
  | ["-c"] => counted start.input.size
  | ["-l"] => counted (start.input.data.toList.count 10)
  | _ => finish start [] false

/-- Writes the environment, one variable on each line. -/
def env : Program := fun start => finish start (View.plain start.environment).toList true

/-- Writes the values of variables, or the environment if none is named. -/
def printenv : Program := fun start =>
  match start.arguments with
  | [] => env start
  | names =>
    let found := names.map fun name => start.environment[name]?
    finish start (found.flatMap fun value => (value.map fun text => text.toList ++ ['\n']).getD [])
      (found.all Option.isSome)

/-- Writes the working directory. -/
def pwd : Program := fun start =>
  finish start ((Machine.pathOf start.files.workingDirectory).display.toList ++ ['\n']) true

/-- Does nothing. -/
def succeed : Program := fun start => finish start [] true

/-- Does nothing, and fails. -/
def fail : Program := fun start => finish start [] false

/-- The utilities by their names. -/
def named : List (String × Program) :=
  [("echo", echo), ("printf", printf), ("cat", cat), ("sort", sort), ("wc", wc), ("env", env),
    ("printenv", printenv), ("pwd", pwd), ("true", succeed), ("false", fail)]

end OrderedEnv.Utility
