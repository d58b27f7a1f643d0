import OrderedEnv.Proofs.Expansion.Grammar

/-!
# What the parts of a value contribute

Expansion puts the segments of a value together. Whether two characters stand in one segment or in
two makes no difference to what comes out: it is what the pieces of the value stand for, one after
the other (`expand_eq_join`). So what is known about the tokens of a value tells what it expands to.
-/

namespace OrderedEnv.Expansion

variable {lookup : String → Option Binding}

/-! ## One after the other -/

namespace Binding

/-- Bindings one after the other. -/
def join (bindings : List Binding) : Binding :=
  ⟨String.join (bindings.map value), bindings.any sensitive⟩

theorem append_assoc (a b c : Binding) : a ++ b ++ c = a ++ (b ++ c) := by
  show Binding.mk _ _ = Binding.mk _ _
  simp only [value_append, sensitive_append, String.append_assoc, Bool.or_assoc]

theorem empty_append (b : Binding) : (⟨"", false⟩ : Binding) ++ b = b := by
  show Binding.mk _ _ = b
  rw [String.empty_append, Bool.false_or]

theorem append_empty (b : Binding) : b ++ ⟨"", false⟩ = b := by
  show Binding.mk _ _ = b
  rw [String.append_empty, Bool.or_false]

theorem join_cons (b : Binding) (bs : List Binding) : join (b :: bs) = b ++ join bs := by
  show Binding.mk _ _ = Binding.mk _ _
  rw [List.map_cons, String.join_cons, List.any_cons]
  rfl

theorem join_append (as bs : List Binding) : join (as ++ bs) = join as ++ join bs := by
  induction as with
  | nil => exact (empty_append _).symm
  | cons a as ih => rw [List.cons_append, join_cons, join_cons, ih, append_assoc]

theorem toList_value_join (bs : List Binding) :
    (join bs).value.toList = bs.flatMap fun b => b.value.toList := by
  rw [join, String.toList_join, List.flatMap_map]

end Binding

/-! ## Segments -/

theorem foldl_resolve (segments : List Segment) (done : Binding) :
    segments.foldl (fun done segment => done ++ segment.resolve lookup) done =
      done ++ Binding.join (segments.map (Segment.resolve lookup)) := by
  induction segments generalizing done with
  | nil => exact (Binding.append_empty done).symm
  | cons segment rest ih =>
    rw [List.foldl_cons, ih, List.map_cons, Binding.join_cons, Binding.append_assoc]

/-- Segments are put together one after the other. -/
theorem assemble_eq_join (lookup : String → Option Binding) (segments : List Segment) :
    assemble lookup segments = Binding.join (segments.map (Segment.resolve lookup)) := by
  rw [assemble, foldl_resolve, Binding.empty_append]

/-- Segments are put together by joining their values. The whole is secret if a segment is. -/
theorem assemble_eq (lookup : String → Option Binding) (segments : List Segment) :
    assemble lookup segments =
      ⟨String.join (segments.map fun segment => (segment.resolve lookup).value),
        segments.any fun segment => (segment.resolve lookup).sensitive⟩ := by
  rw [assemble_eq_join, Binding.join, List.map_map, List.any_map]
  rfl

theorem assemble_cons (segment : Segment) (segments : List Segment) :
    assemble lookup (segment :: segments) =
      segment.resolve lookup ++ assemble lookup segments := by
  rw [assemble_eq_join, assemble_eq_join, List.map_cons, Binding.join_cons]

/-! ## Pending characters -/

/-- Pending characters stand for themselves, whether there are any or not. -/
theorem assemble_flush (pending : List Char) (segments : List Segment) :
    assemble lookup (flush pending segments) =
      ⟨String.ofList pending.reverse, false⟩ ++ assemble lookup segments := by
  cases pending with
  | nil => exact (Binding.empty_append _).symm
  | cons c pending => exact assemble_cons _ _

theorem mem_flush {segment : Segment} {segments : List Segment} (h : segment ∈ segments)
    (pending : List Char) : segment ∈ flush pending segments := by
  cases pending with
  | nil => exact h
  | cons c pending => exact List.mem_cons_of_mem _ h

/-! ## Pieces -/

/-- What a piece of a value stands for. -/
def Piece.resolve (lookup : String → Option Binding) : Piece → Binding
  | .char c => ⟨String.singleton c, false⟩
  | .gap => ⟨"", false⟩
  | .reference name => (Segment.reference (String.ofList name)).resolve lookup

theorem assemble_join (pending : List Char) (ps : List Piece) :
    assemble lookup (join pending ps) =
      ⟨String.ofList pending.reverse, false⟩ ++ Binding.join (ps.map (Piece.resolve lookup)) := by
  induction ps generalizing pending with
  | nil => exact assemble_flush pending []
  | cons p ps ih =>
    rw [List.map_cons, Binding.join_cons]
    cases p with
    | char c =>
      -- the character is put behind those that are pending
      have hpending : (⟨String.ofList (c :: pending).reverse, false⟩ : Binding) =
          ⟨String.ofList pending.reverse, false⟩ ++ Piece.resolve lookup (.char c) := by
        show Binding.mk _ _ = Binding.mk _ _
        rw [List.reverse_cons, String.ofList_append]
        rfl
      rw [join, ih, hpending, Binding.append_assoc]
    | gap =>
      rw [join, assemble_flush, ih]
      rfl
    | reference name =>
      rw [join, assemble_flush, assemble_cons, ih]
      exact congrArg _ (congrArg _ (Binding.empty_append _))

/-- **A value expands to what its pieces stand for, one after the other.** -/
theorem expand_eq_join (lookup : String → Option Binding) (value : String) :
    expand lookup value = Binding.join ((pieces value.toList).map (Piece.resolve lookup)) := by
  rw [expand, parse, assemble_join]
  exact Binding.empty_append _

/-- A reference among the pieces is one among the segments. -/
theorem reference_mem_join {name : List Char} {ps : List Piece} (h : .reference name ∈ ps)
    (pending : List Char) : .reference (String.ofList name) ∈ join pending ps := by
  induction ps generalizing pending with
  | nil => exact absurd h List.not_mem_nil
  | cons p ps ih =>
    rcases List.mem_cons.mp h with rfl | hmem
    · exact mem_flush List.mem_cons_self pending
    · cases p with
      | char c => exact ih hmem (c :: pending)
      | gap => exact mem_flush (ih hmem []) pending
      | reference other => exact mem_flush (List.mem_cons_of_mem _ (ih hmem [])) pending

end OrderedEnv.Expansion
