import OrderedEnv.Expansion

/-!
# References in the bytes of a value

`Expansion.parse` reads characters. Here the bytes of a value are read instead, and what is found is
said by positions: each segment is a slice of the bytes. The bytes that have a meaning are all those
of characters of ASCII, and no other character has such a byte in it, so a slice never cuts through a
character.

The scan looks at every position, those inside a character too, and passes over them one by one.

## Termination

`Scan.next?` goes on at a later position, by `Scan.pos_lt_of_next?`.
-/

namespace OrderedEnv.Expansion.Bytes

/-- The byte in front of a reference. -/
def dollar : UInt8 := 0x24

/-- The byte in front of a name in braces. -/
def openBrace : UInt8 := 0x7B

/-- The byte behind a name in braces. -/
def closeBrace : UInt8 := 0x7D

/-- The byte of a digit. -/
def isDigit (b : UInt8) : Bool := 0x30 ≤ b && b ≤ 0x39

/-- The byte of a letter. -/
def isLetter (b : UInt8) : Bool := (0x41 ≤ b && b ≤ 0x5A) || (0x61 ≤ b && b ≤ 0x7A)

/-- The bytes that are a whole name by themselves: `* # $ @ ! ? -` and the digits. -/
def isSpecial (b : UInt8) : Bool :=
  b = 0x2A || b = 0x23 || b = 0x24 || b = 0x40 || b = 0x21 || b = 0x3F || b = 0x2D || isDigit b

/-- The bytes of a name that is written without braces. -/
def isNameByte (b : UInt8) : Bool := isLetter b || isDigit b || b = 0x5F

/-- A stretch of bytes, from one position up to another. -/
structure Slice where
  start : Nat
  stop : Nat
  deriving DecidableEq, Repr

/-- The bytes of a slice. -/
def Slice.of (slice : Slice) (bytes : List UInt8) : List UInt8 :=
  (bytes.drop slice.start).take (slice.stop - slice.start)

/-! ## One reference -/

/-- What stands behind a `$`. -/
structure Lead where
  /-- Where the name is, counted from the first byte behind the `$`. -/
  name : Option Slice
  /-- How many bytes are taken. With no name, they are dropped, and without any the `$` is text. -/
  width : Nat
  deriving DecidableEq, Repr

/-- Reads what stands behind `${`. -/
def braced (bs : List UInt8) : Lead :=
  match bs.findIdx? (· = closeBrace) with
  | none => ⟨none, 1⟩
  | some 0 => ⟨none, 2⟩
  | some (n + 1) => ⟨some ⟨1, n + 2⟩, n + 3⟩

/-- Whether one byte that is a name by itself and then the closing brace stand behind `${`. -/
def isShortBraced : List UInt8 → Bool
  | b :: c :: _ => isSpecial b && c = closeBrace
  | _ => false

/-- Reads what stands behind a `$`. A short name in braces is found without a search. -/
def lead : List UInt8 → Lead
  | [] => ⟨none, 0⟩
  | b :: bs =>
    if b = openBrace then
      if isShortBraced bs then ⟨some ⟨1, 2⟩, 3⟩ else braced bs
    else if isSpecial b then ⟨some ⟨0, 1⟩, 1⟩
    else
      match ((b :: bs).takeWhile isNameByte).length with
      | 0 => ⟨none, 0⟩
      | n + 1 => ⟨some ⟨0, n + 1⟩, n + 1⟩

/-- The search finds a short name in braces too. -/
theorem braced_of_isShortBraced {bs : List UInt8} (h : isShortBraced bs) :
    braced bs = ⟨some ⟨1, 2⟩, 3⟩ := by
  match bs, h with
  | b :: c :: _, h =>
    obtain ⟨hb, hc⟩ : isSpecial b = true ∧ c = closeBrace := by
      simpa [isShortBraced] using h
    have hne : b ≠ closeBrace := by
      rintro rfl
      exact absurd hb (by decide)
    simp [braced, List.findIdx?_cons, hne, hc]

theorem lead_openBrace (bs : List UInt8) : lead (openBrace :: bs) = braced bs := by
  rw [lead, if_pos rfl]
  split
  · rename_i h
    exact (braced_of_isShortBraced h).symm
  · rfl

/-! ## A whole value -/

/-- A segment of a value by its place. -/
inductive Mark where
  | literal (slice : Slice)
  | reference (slice : Slice)
  deriving DecidableEq, Repr

/-- How far a scan has come. -/
structure Scan where
  /-- Where the text starts that belongs to no segment yet. -/
  literalStart : Nat
  /-- The position that is looked at next. -/
  pos : Nat
  /-- The segments that were found, the last one first. -/
  marks : List Mark
  deriving DecidableEq, Repr

namespace Scan

/-- The scan with the text in front of its position as a segment, if there is any. -/
def flush (scan : Scan) : List Mark :=
  if scan.literalStart < scan.pos then .literal ⟨scan.literalStart, scan.pos⟩ :: scan.marks
  else scan.marks

/-- The scan behind a `$` that is no text. -/
def pass (scan : Scan) (found : Lead) : Scan :=
  let next := scan.pos + 1 + found.width
  let marks := match found.name with
    | none => scan.flush
    | some slice => .reference ⟨scan.pos + 1 + slice.start, scan.pos + 1 + slice.stop⟩ :: scan.flush
  ⟨next, next, marks⟩

/-- The scan with one more byte of text. -/
def skip (scan : Scan) : Scan := { scan with pos := scan.pos + 1 }

/-- Looks at one position, unless the scan is at the end. A `$` at the end is text. -/
def next? (bytes : List UInt8) (scan : Scan) : Option Scan :=
  match bytes.drop scan.pos with
  | [] => none
  | [_] => some scan.skip
  | b :: rest =>
    if b ≠ dollar then some scan.skip
    else
      let found := lead rest
      if found.name.isNone && found.width = 0 then some scan.skip else some (scan.pass found)

theorem pos_lt_of_next? {bytes : List UInt8} {scan next : Scan} (h : scan.next? bytes = some next) :
    scan.pos < next.pos := by
  unfold next? at h
  split at h
  · simp at h
  · obtain rfl := Option.some.inj h
    exact Nat.lt_succ_self _
  · split at h
    · obtain rfl := Option.some.inj h
      exact Nat.lt_succ_self _
    · simp only at h
      split at h <;> obtain rfl := Option.some.inj h
      · exact Nat.lt_succ_self _
      · exact Nat.lt_of_lt_of_le (Nat.lt_succ_self _) (Nat.le_add_right _ _)

theorem pos_lt_length_of_next? {bytes : List UInt8} {scan next : Scan}
    (h : scan.next? bytes = some next) : scan.pos < bytes.length := by
  unfold next? at h
  split at h
  · simp at h
  all_goals
    rename_i heq
    have := congrArg List.length heq
    simp only [List.length_drop, List.length_cons] at this
    omega

/-- Goes on to the end. -/
def finish (bytes : List UInt8) (scan : Scan) : Scan :=
  match _h : scan.next? bytes with
  | none => scan
  | some next => finish bytes next
termination_by bytes.length - scan.pos
decreasing_by
  have := pos_lt_of_next? _h
  have := pos_lt_length_of_next? _h
  omega

end Scan

/-- The segments of a value by their places. -/
def marks (bytes : List UInt8) : List Mark := (Scan.finish bytes ⟨0, 0, []⟩).flush.reverse

/-- The segment at a place. -/
def Mark.segment? (bytes : List UInt8) : Mark → Option Segment
  | .literal slice => (String.fromUTF8? ⟨(slice.of bytes).toArray⟩).map .literal
  | .reference slice => (String.fromUTF8? ⟨(slice.of bytes).toArray⟩).map .reference

/-- The segments of a value, read from its bytes. -/
def parse? (value : String) : Option (List Segment) :=
  let bytes := value.toUTF8.data.toList
  (marks bytes).mapM (Mark.segment? bytes)

end OrderedEnv.Expansion.Bytes
