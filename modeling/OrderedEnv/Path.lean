import OrderedEnv.Text.Utf8

/-!
# Paths

A path is the bytes a user wrote. Nothing is normalised but the end: when the last name or the
parent of a path is asked for, slashes behind it and names `.` behind it are passed over, so `/a/b`,
`/a/b/` and `/a/b/.` have the same last name and the same parent. A `.` at the very start of a
relative path is kept, as it is a name by itself.

## Termination

`Path.parent?_lt` says that a parent is shorter than the path, so a function may call itself on the
parent.
-/

namespace OrderedEnv

/-- One name in a path. -/
abbrev Name := List UInt8

/-- The byte between two names. -/
def slash : UInt8 := 0x2F

/-- The byte of the names `.` and `..`. -/
def dot : UInt8 := 0x2E

/-- The name that leads nowhere. -/
def Name.here : Name := [dot]

/-- The name that leads up. -/
def Name.up : Name := [dot, dot]

/-- A path. -/
structure Path where
  bytes : List UInt8
  deriving DecidableEq, Repr

namespace Path

/-- The path that a text spells. -/
def ofText (text : String) : Path := ⟨text.toUTF8.data.toList⟩

/-- The text that shows a path. Bytes that are no text are shown by replacement characters. -/
def display (path : Path) : String := Text.lossyText ⟨path.bytes.toArray⟩

/-- The text of a path, if it is one. -/
def text? (path : Path) : Option String := String.fromUTF8? ⟨path.bytes.toArray⟩

/-- Nothing is written. -/
def isEmpty (path : Path) : Bool := path.bytes.isEmpty

/-- The path starts at the root. -/
def isAbsolute (path : Path) : Bool := path.bytes.head? = some slash

/-- The path ends in a slash. -/
def endsInSlash (path : Path) : Bool := path.bytes.getLast? = some slash

/-- More bytes behind a path. -/
def appendBytes (path : Path) (more : List UInt8) : Path := ⟨path.bytes ++ more⟩

/-- A path seen from another. An absolute one is the same from everywhere. -/
def join (directory path : Path) : Path :=
  if path.isAbsolute then path
  else if directory.isEmpty || directory.endsInSlash then directory.appendBytes path.bytes
  else directory.appendBytes (slash :: path.bytes)

/-! ## Names -/

/-- The bytes between slashes, empty ones included. -/
def pieces : List UInt8 → List Name
  | [] => [[]]
  | b :: bs =>
    if b = slash then [] :: pieces bs
    else
      match pieces bs with
      | [] => [[b]]
      | name :: names => (b :: name) :: names

/-- The names in a path. -/
def names (path : Path) : List Name := (pieces path.bytes).filter (!·.isEmpty)

/-! ## The end of a path -/

/-- How many bytes at the start are not part of the names that follow: the slash of an absolute
path, or the `.` in front of a relative one. -/
def startLength : List UInt8 → Nat
  | [] => 0
  | b :: bs => if b = slash || (b = dot && (bs.head?.getD slash) = slash) then 1 else 0

/-- Passes over slashes and names `.` at the end of names, which are read from the end. -/
def trimEnd : List UInt8 → List UInt8
  | [] => []
  | b :: bs =>
    if b = slash then trimEnd bs
    else if b = dot && (bs.head?.getD slash) = slash then trimEnd bs
    else b :: bs

theorem length_trimEnd_le (reversed : List UInt8) :
    (trimEnd reversed).length ≤ reversed.length := by
  induction reversed with
  | nil => simp [trimEnd]
  | cons b bs ih =>
    rw [trimEnd]
    split
    · exact Nat.le_succ_of_le ih
    · split
      · exact Nat.le_succ_of_le ih
      · exact Nat.le_refl _

/-- What is left never starts with a slash, seen from the end. -/
theorem head?_trimEnd (reversed : List UInt8) : (trimEnd reversed).head? ≠ some slash := by
  induction reversed with
  | nil => simp [trimEnd]
  | cons b bs ih =>
    rw [trimEnd]
    split
    · exact ih
    · split
      · exact ih
      · simpa using ‹¬b = slash›

/-- The names of a path from the end, without what is passed over there. -/
def body (path : Path) : List UInt8 :=
  trimEnd (path.bytes.drop (startLength path.bytes)).reverse

/-- The last name, unless the path has none or ends in `..`. -/
def fileName? (path : Path) : Option Name :=
  match path.body.takeWhile (· ≠ slash) with
  | [] => none
  | reversed => if reversed = Name.up then none else some reversed.reverse

/-- The path without its last name. The root and the empty path have no parent. -/
def parent? (path : Path) : Option Path :=
  let start := path.bytes.take (startLength path.bytes)
  match path.body with
  | [] => if start = Name.here then some ⟨[]⟩ else none
  | b :: bs => some ⟨start ++ (trimEnd ((b :: bs).dropWhile (· ≠ slash))).reverse⟩

theorem parent?_lt {path parent : Path} (h : path.parent? = some parent) :
    parent.bytes.length < path.bytes.length := by
  have hstart : (path.bytes.take (startLength path.bytes)).length +
      (path.bytes.drop (startLength path.bytes)).length = path.bytes.length := by
    rw [← List.length_append, List.take_append_drop]
  have hbody : path.body.length ≤ (path.bytes.drop (startLength path.bytes)).length := by
    simpa [body] using length_trimEnd_le (path.bytes.drop (startLength path.bytes)).reverse
  unfold parent? at h
  cases hb : path.body with
  | nil =>
    simp only [hb] at h
    split at h
    · rename_i hs
      simp only [Option.some.injEq] at h
      subst h
      rw [hs] at hstart
      simp only [Name.here, List.length_cons, List.length_nil] at hstart ⊢
      omega
    · simp at h
  | cons b bs =>
    have hhead : b ≠ slash := by
      have := head?_trimEnd (path.bytes.drop (startLength path.bytes)).reverse
      rw [← body, hb] at this
      simpa using this
    simp only [hb, Option.some.injEq] at h
    subst h
    have hdrop : ((b :: bs).dropWhile (· ≠ slash)).length ≤ bs.length := by
      rw [List.dropWhile_cons_of_pos (by simpa using hhead)]
      exact (List.dropWhile_suffix _).length_le
    have htrim := length_trimEnd_le ((b :: bs).dropWhile (· ≠ slash))
    rw [hb] at hbody
    simp only [List.length_append, List.length_reverse, List.length_cons] at hbody ⊢
    omega

end Path

end OrderedEnv
