import Std.Data.ExtTreeMap
import OrderedEnv.Expansion
import OrderedEnv.Text.Quoted

/-!
# Environments

An environment gives values to names. It is a finite map, listed in the order of the names, and two
environments that answer every look-up alike are equal.

`Source` is where evaluation takes the ambient environment from. A source is read once, as a whole
(`Source.snapshot`), and the reading fails if the process environment holds bytes that are no text.
-/

namespace OrderedEnv

/-- Values by name. -/
abbrev Environment := Std.ExtTreeMap String String

/-- An environment from a list in which a later value replaces an earlier one. -/
def Environment.ofPairs (pairs : List (String × String)) : Environment :=
  pairs.foldl (fun e pair => e.insert pair.1 pair.2) ∅

/-- Look-up in an environment, where nothing is secret. -/
def Environment.binding? (e : Environment) (name : String) : Option Expansion.Binding :=
  e[name]?.map fun value => ⟨value, false⟩

/-! ## Sources -/

/-- Why an environment could not be read. -/
inductive SourceError where
  /-- A name is not UTF-8. -/
  | nonUnicodeKey (name : ByteArray)
  /-- The value of a variable is not UTF-8. -/
  | nonUnicodeValue (name : String)
  deriving DecidableEq

/-- The message of an error. -/
def SourceError.message : SourceError → String
  | .nonUnicodeKey name =>
    "environment variable name is not valid unicode: " ++ Text.quotedBytes name
  | .nonUnicodeValue name => "value of environment variable " ++ name ++ " is not valid unicode"

/-- Names and values as the operating system holds them. -/
abbrev ProcessEnvironment := List (ByteArray × ByteArray)

/-- Where the ambient environment comes from. -/
inductive Source where
  | empty
  | table (environment : Environment)
  | process (entries : ProcessEnvironment)

/-- The text of one entry. The name is read before the value. -/
def textOf? (entry : ByteArray × ByteArray) : Except SourceError (String × String) :=
  match String.fromUTF8? entry.1 with
  | none => .error (.nonUnicodeKey entry.1)
  | some name =>
    match String.fromUTF8? entry.2 with
    | none => .error (.nonUnicodeValue name)
    | some value => .ok (name, value)

/-- The whole environment at one moment. -/
def Source.snapshot : Source → Except SourceError Environment
  | .empty => .ok ∅
  | .table environment => .ok environment
  | .process entries => (entries.mapM textOf?).map Environment.ofPairs

/-- The value of a variable that is text, `none` if it is missing or not UTF-8. -/
def ProcessEnvironment.text? (entries : ProcessEnvironment) (name : String) : Option String :=
  (entries.find? fun entry => entry.1 = name.toUTF8).bind fun entry => String.fromUTF8? entry.2

end OrderedEnv
