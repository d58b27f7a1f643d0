import OrderedEnv.Limits.Document
import OrderedEnv.Proofs.Json

/-!
# The document of the limits, read again

A limit of zero is left out of the document, and a limit that is left out is read as zero. Every
other limit is written in its digits, which are read as the same number of 64 bits.
-/

namespace OrderedEnv.Limits

open Json

/-- A limit as it stands in a document, nothing if it is zero. -/
def written? (kb : UInt64) : Option UInt64 := if kb = 0 then none else some kb

theorem getD_written? (kb : UInt64) : (written? kb).getD 0 = kb := by
  unfold written?
  split
  · next h => exact h.symm
  · rfl

/-- The entry of a limit, if it has one. -/
def entriesOf (key : String) (kb : UInt64) : List (String × Nat) :=
  (written? kb).toList.map fun kb => (key, kb.toNat)

theorem toList_entryOf? (key : String) (kb : UInt64) :
    (entryOf? key kb).toList = (entriesOf key kb).map numberText := by
  unfold entryOf? entriesOf written?
  split <;> rfl

theorem toJson_eq (limits : Limits) :
    limits.toJson = objectText ((entriesOf valueKey limits.valueKb ++
      entriesOf listKey limits.listKb).map numberText) := by
  rw [toJson, toList_entryOf?, toList_entryOf?, List.map_append]

variable (kb : UInt64) (found : Option UInt64) (rest : List (List Char × Json))

theorem setOnce_none : setOnce none (.number (Nat.toDigits 10 kb.toNat)) = some (some kb) := by
  simp only [setOnce, uint64?_toDigits]

theorem ofEntries?_valueKey :
    ofEntries? none found ((entriesOf valueKey kb).map numberEntry ++ rest) =
      ofEntries? (written? kb) found rest := by
  unfold entriesOf
  cases written? kb with
  | none => rfl
  | some kb =>
    simp [ofEntries?, numberEntry, decode?_flatMap_encodeChar, setOnce_none]

theorem ofEntries?_listKey :
    ofEntries? found none ((entriesOf listKey kb).map numberEntry ++ rest) =
      ofEntries? found (written? kb) rest := by
  have hne : listKey ≠ valueKey := by decide
  unfold entriesOf
  cases written? kb with
  | none => rfl
  | some kb =>
    simp [ofEntries?, numberEntry, decode?_flatMap_encodeChar, setOnce_none, hne]

/-- **Limits are read as they were written.** -/
theorem ofJson?_toJson (limits : Limits) : ofJson? limits.toJson = some limits := by
  have hlist := ofEntries?_listKey limits.listKb (written? limits.valueKb) []
  rw [List.append_nil] at hlist
  rw [ofJson?, toJson_eq, ofText?_objectText, List.map_append]
  show ofEntries? none none _ = _
  rw [ofEntries?_valueKey, hlist, ofEntries?, getD_written?, getD_written?]

end OrderedEnv.Limits
