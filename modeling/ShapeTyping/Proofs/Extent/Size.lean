import Mathlib.Data.List.Induction
import ShapeTyping.Proofs.Extent.Dimension

/-!
# Sizes as dimensions

The dimensions of a tensor type are checked one by one and may have different data types. Its size
is the product of all of them from the left, and the check of this product joins the data types of
the dimensions in the same order. The size can serve as a dimension itself when they agree, and is
otherwise rejected for the first data type that differs from the first one.
-/

namespace ShapeTyping

namespace Extent

/-- The data type that the check finds, if there is one. -/
def knownType? (extent : Extent) : Option DataType :=
  match extent.commonType with
  | .ok known => known
  | .error _ => none

/-- The data type of all of a list, or the first two that differ. -/
def joinAll (types : List DataType) : Except DimensionFault (Option DataType) :=
  match types with
  | [] => .ok none
  | first :: others =>
      match others.find? (· ≠ first) with
      | none => .ok (some first)
      | some other => .error (.mismatch first other)

/-- One more data type is compared with the first one only. -/
theorem joinAll_append (types : List DataType) (known : Option DataType) :
    joinAll (types ++ known.toList) = joinAll types >>= (join · known) := by
  cases known with
  | none =>
      rw [Option.toList_none, List.append_nil]
      cases joinAll types with
      | error fault => rfl
      | ok first => cases first <;> rfl
  | some dtype =>
      rw [Option.toList_some]
      cases types with
      | nil => rfl
      | cons first others =>
          rw [List.cons_append, joinAll, joinAll, List.find?_append]
          cases others.find? (· ≠ first) with
          | some other => rfl
          | none =>
              rw [Option.none_or]
              by_cases same : first = dtype
              · subst same
                simp [join, bind, Except.bind]
              · have other : dtype ≠ first := fun equal => same equal.symm
                simp [join, bind, Except.bind, same, other]

theorem joinAll_eq_error_iff {types : List DataType} {fault : DimensionFault} :
    joinAll types = .error fault ↔
      ∃ first same other after, fault = .mismatch first other ∧
        types = first :: (same ++ other :: after) ∧ (∀ dtype ∈ same, dtype = first) ∧
        other ≠ first := by
  cases types with
  | nil => exact iff_of_false (by rintro ⟨⟩) (by rintro ⟨_, _, _, _, _, ⟨⟩, _⟩)
  | cons first others =>
      have found_iff : ∀ other, others.find? (· ≠ first) = some other ↔
          other ≠ first ∧ ∃ same after, others = same ++ other :: after ∧
            ∀ dtype ∈ same, dtype = first := by
        intro other
        rw [List.find?_eq_some_iff_append]
        simp
      rw [joinAll]
      constructor
      · intro rejected
        cases found : others.find? (· ≠ first) with
        | none =>
            rw [found] at rejected
            contradiction
        | some other =>
            rw [found] at rejected
            obtain ⟨differs, same, after, rfl, all⟩ := (found_iff other).mp found
            exact ⟨first, same, other, after, (Except.error.inj rejected).symm, rfl, all, differs⟩
      · rintro ⟨_, same, other, after, rfl, ⟨⟩, all, differs⟩
        rw [(found_iff other).mpr ⟨differs, same, after, rfl, all⟩]

theorem joinAll_eq_ok_iff {types : List DataType} :
    (∃ known, joinAll types = .ok known) ↔
      ∀ dtype ∈ types, ∀ dtype' ∈ types, dtype = dtype' := by
  constructor
  · rintro ⟨known, joined⟩
    cases types with
    | nil => exact List.forall_mem_nil _
    | cons first others =>
        have all : ∀ dtype ∈ first :: others, dtype = first := by
          rw [joinAll] at joined
          cases found : others.find? (· ≠ first) with
          | none => simpa using found
          | some other =>
              rw [found] at joined
              contradiction
        exact fun dtype mem dtype' mem' => (all dtype mem).trans (all dtype' mem').symm
  · intro agree
    cases joined : joinAll types with
    | ok known => exact ⟨known, rfl⟩
    | error fault =>
        obtain ⟨first, same, other, after, -, rfl, -, differs⟩ := joinAll_eq_error_iff.mp joined
        exact absurd (agree other (by simp) first List.mem_cons_self) differs

theorem filterMap_knownType?_singleton {extent : Extent} {known : Option DataType}
    (typed : extent.commonType = .ok known) : [extent].filterMap knownType? = known.toList := by
  have found : extent.knownType? = known := by rw [knownType?, typed]
  cases known with
  | none => rw [List.filterMap_cons_none found, List.filterMap_nil, Option.toList_none]
  | some dtype => rw [List.filterMap_cons_some found, List.filterMap_nil, Option.toList_some]

/-- The data types of the factors are joined from the left. -/
theorem commonType_product {first : Extent} {rest : List Extent}
    (typed : ∀ extent ∈ first :: rest, ∃ known, extent.commonType = .ok known) :
    (rest.foldl (binary none .mul) first).commonType =
      joinAll ((first :: rest).filterMap knownType?) := by
  induction rest using List.reverseRecOn with
  | nil =>
      obtain ⟨known, first_typed⟩ := typed first (List.mem_singleton_self first)
      rw [List.foldl_nil, first_typed, filterMap_knownType?_singleton first_typed]
      cases known <;> rfl
  | append_singleton rest last induction =>
      rw [← List.cons_append, List.forall_mem_append] at typed
      obtain ⟨known, last_typed⟩ := typed.2 last (List.mem_singleton_self last)
      rw [List.foldl_append, List.foldl_cons, List.foldl_nil, commonType, induction typed.1,
        last_typed, ← List.cons_append, List.filterMap_append,
        filterMap_knownType?_singleton last_typed, joinAll_append]
      rfl

theorem nonnegative_product {first : Extent} (nonnegative : ∀ value ∈ first.asInt?, 0 ≤ value)
    (rest : List Extent) :
    ∀ value ∈ (rest.foldl (binary none .mul) first).asInt?, 0 ≤ value := by
  induction rest generalizing first with
  | nil => exact nonnegative
  | cons second rest induction => exact induction fun value found => by contradiction

end Extent

namespace TensorType

/-- Tensor types are made of a shape that has been checked, or without dimensions. -/
inductive Built : TensorType → Prop
  | make {shape : List Extent} {dtype : DataType} {tensor : TensorType}
      (made : make shape dtype = .ok tensor) : Built tensor
  | scalar (dtype : DataType) : Built (scalar dtype)

/-- The data types of the dimensions for which the check finds one, in their order. -/
def knownTypes (tensor : TensorType) : List DataType := tensor.shape.filterMap Extent.knownType?

theorem Built.dimensions {tensor : TensorType} (built : tensor.Built) :
    ∀ extent ∈ tensor.shape, extent.IsDimension := by
  cases built with
  | scalar dtype => exact List.forall_mem_nil _
  | @make shape dtype _ made =>
      rw [TensorType.make] at made
      rcases checkShape_cases 0 shape with ⟨passed, all⟩ | ⟨_, _, _, _, _, _, _, failed⟩
      · rw [passed] at made
        obtain rfl := Except.ok.inj made
        exact all
      · rw [failed] at made
        contradiction

theorem check_size {tensor : TensorType} (built : tensor.Built) :
    tensor.size.check = (Extent.joinAll tensor.knownTypes).map fun _ => () := by
  have dimensions := built.dimensions
  rw [size, knownTypes]
  cases shape : tensor.shape with
  | nil => rfl
  | cons first rest =>
      rw [shape] at dimensions
      have typed : ∀ extent ∈ first :: rest, ∃ known, extent.commonType = .ok known :=
        fun extent mem => (Extent.isDimension_iff.mp (dimensions extent mem)).2
      have nonnegative := (dimensions first List.mem_cons_self).nonnegative
      dsimp only
      rw [Extent.check_of_nonnegative (Extent.nonnegative_product nonnegative rest),
        Extent.commonType_product typed]

/-- The size of a tensor type can serve as a dimension exactly when the dimensions with a known data
type all have the same one. Otherwise it is rejected for the first of these data types and the first
one after it that differs. -/
theorem size_is_dimension_iff {tensor : TensorType} (built : tensor.Built) :
    (tensor.size.check = .ok () ↔
      ∀ dtype ∈ tensor.knownTypes, ∀ dtype' ∈ tensor.knownTypes, dtype = dtype') ∧
      ∀ fault, tensor.size.check = .error fault ↔
        ∃ first same other after, fault = .mismatch first other ∧
          tensor.knownTypes = first :: (same ++ other :: after) ∧
          (∀ dtype ∈ same, dtype = first) ∧ other ≠ first := by
  rw [check_size built, ← Extent.joinAll_eq_ok_iff]
  refine ⟨?_, fun fault => ?_⟩
  · cases Extent.joinAll tensor.knownTypes <;> simp [Except.map]
  · rw [← Extent.joinAll_eq_error_iff]
    cases Extent.joinAll tensor.knownTypes <;> simp [Except.map]

/-- A dimension of the given data type between two of 32-bit integers, and wildcards. -/
def mixed (dtype : DataType) : TensorType :=
  ⟨[.any none, .int32 2, .any none, .int none 3 dtype, .int32 5], .float32⟩

/-- Both tensor types can be made, but the size of the second one is no dimension. -/
theorem mixed_size_checked :
    (mixed .int32).Built ∧ (mixed .int32).size.check = .ok () ∧ (mixed .int64).Built ∧
      (mixed .int64).size.check = .error (.mismatch .int32 .int64) := by
  have agreeing : (mixed .int32).Built := .make (by rfl : make (mixed .int32).shape .float32 = _)
  have differing : (mixed .int64).Built := .make (by rfl : make (mixed .int64).shape .float32 = _)
  refine ⟨agreeing, (size_is_dimension_iff agreeing).1.mpr ?_, differing, ?_⟩
  · rw [show (mixed .int32).knownTypes = List.replicate 3 .int32 from rfl]
    exact fun dtype mem dtype' mem' =>
      (List.eq_of_mem_replicate mem).trans (List.eq_of_mem_replicate mem').symm
  · refine ((size_is_dimension_iff differing).2 _).mpr ⟨.int32, [], .int64, [.int32], rfl, ?_⟩
    exact ⟨rfl, List.forall_mem_nil _, by decide⟩

end TensorType

end ShapeTyping
