import OrderedEnv.Declaration.Basic

/-!
# Size limits

How large a value, and all values of a list together, may be. Sizes are bytes of UTF-8; limits are
given in units of 1024 bytes, and a limit of zero is none.

Limits and sizes are numbers of 64 bits. A limit that would not fit in bytes is the greatest number
that does.
-/

namespace OrderedEnv

/-- The limits that are checked when a declaration is added. -/
structure Limits where
  /-- For one value, in units of 1024 bytes, zero for no limit. -/
  valueKb : UInt64
  /-- For all values together, in units of 1024 bytes, zero for no limit. -/
  listKb : UInt64
  deriving DecidableEq, Repr

namespace Limits

/-- The limits of a new configuration. -/
def default : Limits := ⟨20, 100⟩

/-- No limits. -/
def unlimited : Limits := ⟨0, 0⟩

/-- The bytes in a number of units, the greatest number of 64 bits if they do not fit. -/
def saturatingBytes (kb : UInt64) : UInt64 :=
  UInt64.ofNat (min (kb.toNat * 1024) (UInt64.size - 1))

/-- A limit in bytes. -/
def limitBytes (kb : UInt64) : Option UInt64 := if 0 < kb then some (saturatingBytes kb) else none

/-- The limit for one value in bytes. -/
def valueBytes (limits : Limits) : Option UInt64 := limitBytes limits.valueKb

/-- The limit for all values together in bytes. -/
def listBytes (limits : Limits) : Option UInt64 := limitBytes limits.listKb

end Limits

/-- Why a value may not be added. -/
inductive QuotaError where
  | valueTooLarge (size limit : UInt64)
  | listTooLarge (size limit : UInt64)
  deriving DecidableEq, Repr

/-- The message of an error. -/
def QuotaError.message : QuotaError → String
  | .valueTooLarge size limit =>
    "environment value too large: " ++ toString size ++ " bytes, max allowed " ++ toString limit ++
      " bytes"
  | .listTooLarge size limit =>
    "environment list too large: " ++ toString size ++ " bytes, max allowed " ++ toString limit ++
      " bytes"

namespace Quota

/-- The bytes of a text. -/
def byteSize (text : String) : UInt64 := UInt64.ofNat text.utf8ByteSize

/-- The bytes of all values of a list. -/
def listSize (declarations : List Declaration) : UInt64 :=
  declarations.foldr (fun d size => byteSize d.value + size) 0

/-- A size is within a limit. -/
def within (size : UInt64) (limit : Option UInt64) (tooLarge : UInt64 → QuotaError) :
    Except QuotaError Unit :=
  match limit with
  | none => .ok ()
  | some limit => if limit < size then .error (tooLarge limit) else .ok ()

/-- A value is not too large by itself. -/
def checkValue (value : String) (limits : Limits) : Except QuotaError Unit :=
  let size := byteSize value
  within size limits.valueBytes (.valueTooLarge size)

/-- A value is not too large to be added to a list. -/
def checkList (declarations : List Declaration) (value : String) (limits : Limits) :
    Except QuotaError Unit :=
  let size := listSize declarations + byteSize value
  within size limits.listBytes (.listTooLarge size)

/-- A value may be added to a list. The value is checked before the list. -/
def check (declarations : List Declaration) (value : String) (limits : Limits) :
    Except QuotaError Unit := do
  checkValue value limits
  checkList declarations value limits

end Quota

end OrderedEnv
