import OrderedEnv.Expansion.Bytes

/-!
# References in a text whose reads are guarded

`Bytes` works on positions alone. A position that is out of range finds no byte there, and a slice
that misses is only shorter, so a slip of the scan would not show. Here the same scan reads the text
itself, and every read is guarded: a byte must be there, and a slice must have its bounds in order,
inside the text and between two characters. The first read that is refused ends the scan with a
refusal.

The name behind a `$` is looked for in the text that follows, which is cut out first. Slices of it
are counted from its own start.

## Termination

`Scan.next?` goes on at a later position, by `Scan.pos_lt_of_next?`, and only from one that is
inside the text, by `Scan.pos_lt_size_of_next?`.
-/

namespace OrderedEnv.Expansion.Bytes.Guarded

/-! ## Reads -/

/-- The bytes of a text. -/
def bytesOf (text : String) : List UInt8 := text.toUTF8.data.toList

/-- A slice that can be cut out of a text. -/
structure Fits (text : String) (slice : Slice) : Prop where
  /-- The bounds are in order -/
  ordered : slice.start ≤ slice.stop
  /-- and inside the text, -/
  inside : slice.stop ≤ text.utf8ByteSize
  /-- and neither of them is in the middle of a character. -/
  start : String.Pos.Raw.IsValid text ⟨slice.start⟩
  stop : String.Pos.Raw.IsValid text ⟨slice.stop⟩

instance (text : String) (slice : Slice) : Decidable (Fits text slice) :=
  decidable_of_iff
    (slice.start ≤ slice.stop ∧ slice.stop ≤ text.utf8ByteSize ∧
      String.Pos.Raw.IsValid text ⟨slice.start⟩ ∧ String.Pos.Raw.IsValid text ⟨slice.stop⟩)
    ⟨fun ⟨hle, hin, hstart, hstop⟩ => ⟨hle, hin, hstart, hstop⟩,
      fun ⟨hle, hin, hstart, hstop⟩ => ⟨hle, hin, hstart, hstop⟩⟩

/-- A read that is refused. -/
inductive Refusal where
  /-- There is no byte at the position. -/
  | byte (pos : Nat)
  /-- The slice does not fit the text. -/
  | slice (slice : Slice)
  deriving DecidableEq, Repr

/-- The byte at a position. -/
def byteAt (text : String) (pos : Nat) : Except Refusal UInt8 :=
  match (bytesOf text)[pos]? with
  | some b => .ok b
  | none => .error (.byte pos)

/-- The text of a slice. -/
def cut (text : String) (slice : Slice) : Except Refusal String :=
  if h : Fits text slice then
    .ok (String.extract (text.pos ⟨slice.start⟩ h.start) (text.pos ⟨slice.stop⟩ h.stop))
  else .error (.slice slice)

/-- What is done after a read is done with what the read gives. -/
theorem bind_eq_ok_iff {α β : Type} {x : Except Refusal α} {f : α → Except Refusal β} {b : β} :
    (x >>= f) = .ok b ↔ ∃ a, x = .ok a ∧ f a = .ok b := by
  cases x with
  | error refusal => simp [bind, Except.bind]
  | ok a => simp [bind, Except.bind]

/-! ## One reference -/

/-- What stands behind a `$`. -/
structure Lead where
  /-- The name, if there is one. -/
  name : Option String
  /-- How many bytes are taken. With no name, they are dropped, and without any the `$` is text. -/
  width : Nat
  deriving DecidableEq, Repr

/-- Whether one byte that is a name by itself and then the closing brace stand behind the `{`. -/
def isShortBraced (rest : String) : Except Refusal Bool := do
  if rest.utf8ByteSize ≤ 2 then
    return false
  else
    if isSpecial (← byteAt rest 1) then
      return (← byteAt rest 2) = closeBrace
    else
      return false

/-- Looks for the closing brace of a name behind the `{`. -/
def braced (rest : String) : Except Refusal Lead := do
  match ((bytesOf rest).drop 1).findIdx? (· = closeBrace) with
  | none => return ⟨none, 1⟩
  | some 0 => return ⟨none, 2⟩
  | some (n + 1) => return ⟨some (← cut rest ⟨1, n + 2⟩), n + 3⟩

/-- Reads what stands behind a `$`. Its first byte must be there. -/
def lead (rest : String) : Except Refusal Lead := do
  let first ← byteAt rest 0
  if first = openBrace then
    if ← isShortBraced rest then
      return ⟨some (← cut rest ⟨1, 2⟩), 3⟩
    else
      braced rest
  else if isSpecial first then
    return ⟨some (← cut rest ⟨0, 1⟩), 1⟩
  else
    match ((bytesOf rest).takeWhile isNameByte).length with
    | 0 => return ⟨none, 0⟩
    | n + 1 => return ⟨some (← cut rest ⟨0, n + 1⟩), n + 1⟩

/-! ## A whole value -/

/-- How far a scan has come. -/
structure Scan where
  /-- Where the text starts that belongs to no segment yet. -/
  literalStart : Nat
  /-- The position that is looked at next. -/
  pos : Nat
  /-- The segments that were found, the last one first. -/
  segments : List Segment
  deriving DecidableEq, Repr

namespace Scan

/-- A scan that has read nothing. -/
def start : Scan := ⟨0, 0, []⟩

/-- The scan with one more byte of text. -/
def skip (scan : Scan) : Scan := { scan with pos := scan.pos + 1 }

/-- The text behind the position, if a name is looked for there: the byte at the position is a `$`
and not the last one. -/
def behind? (text : String) (scan : Scan) : Except Refusal (Option String) := do
  let b ← byteAt text scan.pos
  if b ≠ dollar ∨ text.utf8ByteSize ≤ scan.pos + 1 then
    return none
  else
    return some (← cut text ⟨scan.pos + 1, text.utf8ByteSize⟩)

/-- The segments with the text up to `stop` as one more, if there is any. -/
def flush (text : String) (scan : Scan) (stop : Nat) : Except Refusal (List Segment) := do
  if scan.literalStart < stop then
    return .literal (← cut text ⟨scan.literalStart, stop⟩) :: scan.segments
  else
    return scan.segments

/-- The scan behind a `$` that is no text. -/
def pass (text : String) (scan : Scan) (found : Lead) : Except Refusal Scan := do
  let done ← scan.flush text scan.pos
  let next := scan.pos + 1 + found.width
  return ⟨next, next, (found.name.map .reference).toList ++ done⟩

/-- Looks at one position, unless the scan is at the end. -/
def next? (text : String) (scan : Scan) : Except Refusal (Option Scan) := do
  if text.utf8ByteSize ≤ scan.pos then
    return none
  else
    match ← scan.behind? text with
    | none => return some scan.skip
    | some rest =>
      let found ← lead rest
      if found.name.isNone && found.width = 0 then
        return some scan.skip
      else
        return some (← scan.pass text found)

/-- A position that is looked at is inside the text. -/
theorem pos_lt_size_of_next? {text : String} {scan next : Scan}
    (h : scan.next? text = .ok (some next)) : scan.pos < text.utf8ByteSize := by
  refine Nat.lt_of_not_le fun hend => ?_
  rw [next?, if_pos hend] at h
  cases h

theorem pos_lt_of_pass {text : String} {scan next : Scan} {found : Lead}
    (h : scan.pass text found = .ok next) : scan.pos < next.pos := by
  obtain ⟨done, -, hnext⟩ := bind_eq_ok_iff.mp h
  obtain rfl := Except.ok.inj hnext
  show scan.pos < scan.pos + 1 + found.width
  omega

theorem pos_lt_of_next? {text : String} {scan next : Scan}
    (h : scan.next? text = .ok (some next)) : scan.pos < next.pos := by
  rw [next?, if_neg (Nat.not_le.mpr (pos_lt_size_of_next? h))] at h
  obtain ⟨behind, -, h⟩ := bind_eq_ok_iff.mp h
  cases behind with
  | none =>
    obtain rfl := Option.some.inj (Except.ok.inj h)
    exact Nat.lt_succ_self _
  | some rest =>
    obtain ⟨found, -, h⟩ := bind_eq_ok_iff.mp h
    split at h
    · obtain rfl := Option.some.inj (Except.ok.inj h)
      exact Nat.lt_succ_self _
    · obtain ⟨passed, hpass, h⟩ := bind_eq_ok_iff.mp h
      obtain rfl := Option.some.inj (Except.ok.inj h)
      exact pos_lt_of_pass hpass

/-- Goes on to the end. -/
def finish (text : String) (scan : Scan) : Except Refusal Scan :=
  match _h : scan.next? text with
  | .error refusal => .error refusal
  | .ok none => .ok scan
  | .ok (some next) => finish text next
termination_by text.utf8ByteSize - scan.pos
decreasing_by
  have := pos_lt_of_next? _h
  have := pos_lt_size_of_next? _h
  omega

end Scan

/-- The segments of a value. -/
def parse (value : String) : Except Refusal (List Segment) := do
  let scan ← Scan.finish value .start
  return (← scan.flush value value.utf8ByteSize).reverse

end OrderedEnv.Expansion.Bytes.Guarded
