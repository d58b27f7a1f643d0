/-!
# Variable references in a value

A value such as `https://$HOST/${PATH}` holds references to variables. This module cuts a value
into references and the literal text between them, and puts it together again with the values of
the variables.

## The grammar

What stands behind a `$` decides what it means.

* `{`, then text up to the first `}`: a reference to that text. The braces may hold anything but `}`.
  With nothing between the braces the three characters are dropped, and a `${` that is never closed
  is dropped alone.
* one of `* # $ @ ! ? -` or a digit: a reference whose name is that one character.
* a letter or `_`: a reference whose name is the longest run of letters, digits and `_`.
* anything else, or nothing: the `$` is an ordinary character.

Letters and digits are those of ASCII. Text that comes from a variable is never read again.

## Termination

`pieces` goes on with the rest behind a reference, which is shorter by `Lead.rest_lt`.
-/

namespace OrderedEnv.Expansion

/-! ## Characters of a name -/

/-- The characters that are a whole name by themselves. -/
def isSpecial (c : Char) : Bool :=
  c = '*' || c = '#' || c = '$' || c = '@' || c = '!' || c = '?' || c = '-' || c.isDigit

/-- The characters of a name that is written without braces. -/
def isNameChar (c : Char) : Bool := c.isAlphanum || c = '_'

/-! ## One reference -/

/-- What the text behind a `$` means. -/
inductive Lead where
  /-- The `$` is an ordinary character. -/
  | text
  /-- The `$` and what was read with it vanish, `rest` follows. -/
  | dropped (rest : List Char)
  /-- A reference, `rest` follows. -/
  | reference (name rest : List Char)
  deriving DecidableEq, Repr

/-- Reads the name behind `${`. -/
def braced (cs : List Char) : Lead :=
  match cs.takeWhile (· != '}'), cs.dropWhile (· != '}') with
  | _, [] => .dropped cs
  | [], _ :: rest => .dropped rest
  | c :: name, _ :: rest => .reference (c :: name) rest

/-- Reads what stands behind a `$`. -/
def lead : List Char → Lead
  | [] => .text
  | c :: cs =>
    if c = '{' then braced cs
    else if isSpecial c then .reference [c] cs
    else if isNameChar c then .reference (c :: cs.takeWhile isNameChar) (cs.dropWhile isNameChar)
    else .text

/-- What is left to read after a lead that was not ordinary text. -/
def Lead.rest? : Lead → Option (List Char)
  | .text => none
  | .dropped rest => some rest
  | .reference _ rest => some rest

private theorem length_dropWhile_le (p : Char → Bool) (cs : List Char) :
    (cs.dropWhile p).length ≤ cs.length :=
  (List.dropWhile_suffix p).length_le

theorem braced_rest_le {cs rest : List Char} (h : (braced cs).rest? = some rest) :
    rest.length ≤ cs.length := by
  have hd := length_dropWhile_le (· != '}') cs
  unfold braced at h
  split at h <;> rename_i heq <;> simp_all [Lead.rest?] <;> subst h <;> omega

/-- A reference takes at least one character. -/
theorem Lead.rest_lt {cs rest : List Char} (h : (lead cs).rest? = some rest) :
    rest.length < cs.length := by
  cases cs with
  | nil => simp [lead, Lead.rest?] at h
  | cons c cs =>
    have hd := length_dropWhile_le isNameChar cs
    rw [lead] at h
    by_cases hb : c = '{'
    · rw [if_pos hb] at h
      exact Nat.lt_succ_of_le (braced_rest_le h)
    · rw [if_neg hb] at h
      by_cases hs : isSpecial c = true
      · simp only [if_pos hs, Lead.rest?, Option.some.injEq] at h
        simp [← h]
      · by_cases hn : isNameChar c = true
        · simp only [if_neg hs, if_pos hn, Lead.rest?, Option.some.injEq] at h
          simp only [← h, List.length_cons]
          omega
        · simp [if_neg hs, if_neg hn, Lead.rest?] at h

/-! ## A whole value -/

/-- The smallest parts of a value. -/
inductive Piece where
  /-- A character that stands for itself. -/
  | char (c : Char)
  /-- A place where malformed syntax was dropped. -/
  | gap
  /-- A reference to a variable. -/
  | reference (name : List Char)
  deriving DecidableEq, Repr

/-- Cuts a value into its smallest parts, from left to right. -/
def pieces : List Char → List Piece
  | [] => []
  | c :: cs =>
    if c = '$' then
      match h : lead cs with
      | .text => .char c :: pieces cs
      | .dropped rest =>
        have : rest.length < cs.length := Lead.rest_lt (by rw [h]; rfl)
        .gap :: pieces rest
      | .reference name rest =>
        have : rest.length < cs.length := Lead.rest_lt (by rw [h]; rfl)
        .reference name :: pieces rest
    else .char c :: pieces cs
termination_by cs => cs.length

/-- A stretch of a value. -/
inductive Segment where
  /-- Text that is copied unchanged. -/
  | literal (text : String)
  /-- A reference to the variable of that name. -/
  | reference (name : String)
  deriving DecidableEq, Repr

/-- Puts the pending characters, last one first, before the segments as a literal, unless there are
none. -/
def flush (pending : List Char) (segments : List Segment) : List Segment :=
  if pending.isEmpty then segments else .literal (String.ofList pending.reverse) :: segments

/-- Joins neighbouring characters. `pending` holds the characters since the last break, the last one
first. -/
def join (pending : List Char) : List Piece → List Segment
  | [] => flush pending []
  | .char c :: ps => join (c :: pending) ps
  | .gap :: ps => flush pending (join [] ps)
  | .reference name :: ps => flush pending (.reference (String.ofList name) :: join [] ps)

/-- The segments of a value. Text on the two sides of dropped syntax stays in two segments. -/
def parse (value : String) : List Segment := join [] (pieces value.toList)

/-! ## Expansion -/

/-- The value of a variable, and whether it must be kept secret. -/
structure Binding where
  value : String
  sensitive : Bool
  deriving DecidableEq, Repr

/-- The text that a segment contributes. A variable that is not defined contributes nothing. -/
def Segment.resolve (lookup : String → Option Binding) : Segment → Binding
  | .literal text => ⟨text, false⟩
  | .reference name => (lookup name).getD ⟨"", false⟩

/-- One after the other. The whole is secret if a part is. -/
def Binding.append (a b : Binding) : Binding := ⟨a.value ++ b.value, a.sensitive || b.sensitive⟩

instance : Append Binding := ⟨Binding.append⟩

@[simp] theorem Binding.value_append (a b : Binding) : (a ++ b).value = a.value ++ b.value := rfl

@[simp] theorem Binding.sensitive_append (a b : Binding) :
    (a ++ b).sensitive = (a.sensitive || b.sensitive) := rfl

/-- Puts segments together with the values of the variables they name. -/
def assemble (lookup : String → Option Binding) (segments : List Segment) : Binding :=
  segments.foldl (fun done segment => done ++ segment.resolve lookup) ⟨"", false⟩

/-- Replaces every reference in a value. The result is secret if a variable that was used is. -/
def expand (lookup : String → Option Binding) (value : String) : Binding :=
  assemble lookup (parse value)

end OrderedEnv.Expansion
