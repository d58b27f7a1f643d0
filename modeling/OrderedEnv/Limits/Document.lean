import OrderedEnv.Json.Parser
import OrderedEnv.Json.Printer
import OrderedEnv.Quota

/-!
# The document of the limits

Limits are kept in a JSON object. A limit of zero is left out when it is written, and a limit that
is left out is read as zero. An array of the limits in order is read, too.
-/

namespace OrderedEnv.Limits

/-- The key of the limit for one value. -/
def valueKey : String := "env_bytes_limit_in_kb"

/-- The key of the limit for all values together. -/
def listKey : String := "env_list_bytes_limit_in_kb"

/-- The entry of a limit, nothing if it is zero. -/
def entryOf? (key : String) (kb : UInt64) : Option (String × List Char) :=
  if kb = 0 then none else some (key, Nat.toDigits 10 kb.toNat)

/-- The text of a document with these limits. -/
def toJson (limits : Limits) : String :=
  Json.objectText
    ((entryOf? valueKey limits.valueKb).toList ++ (entryOf? listKey limits.listKb).toList)

/-- Sets a limit that was not set before. -/
def setOnce (found : Option UInt64) (value : Json) : Option (Option UInt64) :=
  match found, value.uint64? with
  | none, some kb => some (some kb)
  | _, _ => none

/-- Reads the entries of an object. Each of the two keys may stand there once. -/
def ofEntries? (valueKb listKb : Option UInt64) : List (List Char × Json) → Option Limits
  | [] => some ⟨valueKb.getD 0, listKb.getD 0⟩
  | (written, value) :: rest => do
    let key := String.ofList (← Json.decode? written)
    if key = valueKey then ofEntries? (← setOnce valueKb value) listKb rest
    else if key = listKey then ofEntries? valueKb (← setOnce listKb value) rest
    else ofEntries? valueKb listKb rest

/-- Reads a document. -/
def ofJson? (text : String) : Option Limits := do
  match ← Json.ofText? text with
  | .object entries => ofEntries? none none entries
  | .array [] => return ⟨0, 0⟩
  | .array [valueKb] => return ⟨← valueKb.uint64?, 0⟩
  | .array [valueKb, listKb] => return ⟨← valueKb.uint64?, ← listKb.uint64?⟩
  | _ => none

end OrderedEnv.Limits
