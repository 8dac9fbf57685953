import Mathlib.Order.Bounds.Basic
import ShapeTyping.Construction
import ShapeTyping.Proofs.Extent.Text

/-!
# Dimensions of tensor types

The check of a dimension joins the data types of its operands from the leaves up, and a wildcard
takes that of the other side. What it decides is a condition on all leaves at once, in which
wildcards do not count. A tensor type is made of a shape exactly when all its dimensions meet this
condition, and otherwise the first one that does not is reported.
-/

namespace ShapeTyping

/-- Integers other than booleans, in one lane. -/
def DataType.Counts (dtype : DataType) : Prop :=
  (dtype.code = .int ∨ dtype.code = .uint) ∧ dtype.isBool = false ∧ dtype.lanes = 1

instance : DecidablePred DataType.Counts := fun _ => inferInstanceAs (Decidable (_ ∧ _))

theorem DataType.isInteger_iff {dtype : DataType} :
    dtype.isInteger = true ↔ (dtype.code = .int ∨ dtype.code = .uint) ∧ dtype.isBool = false := by
  rw [isInteger, Bool.and_eq_true, Bool.or_eq_true, isInt, isUInt, beq_iff_eq, beq_iff_eq,
    Bool.not_eq_true']

theorem DataType.scalarInteger_eq_ok_iff {dtype accepted : DataType} :
    dtype.scalarInteger = .ok accepted ↔ dtype.Counts ∧ dtype = accepted := by
  have counts_iff : dtype.Counts ↔ dtype.isInteger = true ∧ dtype.isScalar = true := by
    rw [Counts, isInteger_iff, isScalar, beq_iff_eq, and_assoc]
  rw [scalarInteger, counts_iff]
  cases dtype.isInteger <;> cases dtype.isScalar <;> simp

theorem bind_eq_ok_iff {ε α β : Type} {first : Except ε α} {next : α → Except ε β} {result : β} :
    first >>= next = .ok result ↔ ∃ value, first = .ok value ∧ next value = .ok result := by
  cases first with
  | error fault => exact iff_of_false (by rintro ⟨⟩) (by simp)
  | ok value => exact ⟨fun made => ⟨value, rfl, made⟩, by rintro ⟨_, ⟨⟩, made⟩; exact made⟩

namespace Extent

/-- The data types of the leaves other than wildcards, from left to right. -/
def leafTypes : Extent → List DataType
  | int _ _ dtype | float _ _ dtype => [dtype]
  | var _ shapeVar => [shapeVar.dtype]
  | binary _ _ left right => left.leafTypes ++ right.leafTypes
  | any _ => []

/-- What makes an extent fit to be a dimension. -/
structure IsDimension (extent : Extent) : Prop where
  /-- It is no negative literal. -/
  nonnegative : ∀ value ∈ extent.asInt?, 0 ≤ value
  /-- There is no floating-point literal in it. -/
  integral : extent.Integral
  /-- All leaves other than wildcards are integers of one data type. -/
  typed : ∃ dtype : DataType, dtype.Counts ∧ ∀ leafType ∈ extent.leafTypes, leafType = dtype

/-- All data types are those of integers and the same as the first one. -/
def Agree (types : List DataType) : Prop :=
  ∀ dtype ∈ types, dtype.Counts ∧ types.head? = some dtype

theorem join_eq_ok_iff {left right known : Option DataType} :
    join left right = .ok known ↔
      (∀ dtype ∈ left, ∀ dtype' ∈ right, dtype = dtype') ∧ known = left.or right := by
  cases left with
  | none => cases right <;> simp [join, eq_comm]
  | some dtype =>
      cases right with
      | none => simp [join, eq_comm]
      | some dtype' => by_cases same : dtype = dtype' <;> simp [join, same, eq_comm]

/-- Integers that are all of one data type agree with each other and start with it. -/
theorem forall_mem_counts_iff (first : DataType) (types : List DataType) :
    (∀ dtype ∈ types, dtype.Counts ∧ first = dtype) ↔
      Agree types ∧ ∀ dtype ∈ types.head?, first = dtype := by
  cases types with
  | nil => simp [Agree]
  | cons second types =>
      constructor
      · intro all
        obtain rfl : first = second := (all second List.mem_cons_self).2
        exact ⟨fun dtype mem => ⟨(all dtype mem).1, congrArg some (all dtype mem).2⟩,
          fun _ found => Option.some.inj found⟩
      · rintro ⟨agree, same⟩
        obtain rfl : first = second := same second rfl
        exact fun dtype mem => ⟨(agree dtype mem).1, Option.some.inj (agree dtype mem).2⟩

theorem agree_append_iff {left right : List DataType} :
    Agree (left ++ right) ↔ Agree left ∧ Agree right ∧
      ∀ dtype ∈ left.head?, ∀ dtype' ∈ right.head?, dtype = dtype' := by
  cases left with
  | nil => simp [Agree]
  | cons first left =>
      have agree_iff : ∀ types, Agree (first :: types) ↔
          ∀ dtype ∈ first :: types, dtype.Counts ∧ first = dtype := by
        intro types
        simp only [Agree, List.head?_cons, Option.some.injEq]
      rw [List.cons_append, agree_iff, agree_iff, ← List.cons_append, List.forall_mem_append,
        forall_mem_counts_iff first right, List.head?_cons]
      simp

theorem map_scalarInteger_eq_ok_iff {dtype : DataType} {known : Option DataType} :
    dtype.scalarInteger.map some = .ok known ↔ Agree [dtype] ∧ known = some dtype := by
  have agree_iff : Agree [dtype] ↔ dtype.Counts := by simp [Agree]
  rw [agree_iff]
  constructor
  · intro made
    cases checked : dtype.scalarInteger with
    | error fault =>
        rw [checked] at made
        contradiction
    | ok accepted =>
        obtain ⟨counts, rfl⟩ := DataType.scalarInteger_eq_ok_iff.mp checked
        rw [checked] at made
        exact ⟨counts, (Except.ok.inj made).symm⟩
  · rintro ⟨counts, rfl⟩
    rw [DataType.scalarInteger_eq_ok_iff.mpr ⟨counts, rfl⟩]
    rfl

/-- The data types of all leaves are joined to the first one when they agree. -/
theorem commonType_eq_ok_iff {extent : Extent} {known : Option DataType} :
    extent.commonType = .ok known ↔
      extent.Integral ∧ Agree extent.leafTypes ∧ known = extent.leafTypes.head? := by
  induction extent generalizing known with
  | int label value dtype =>
      rw [commonType, map_scalarInteger_eq_ok_iff]
      simp [Integral, leafTypes]
  | float label value dtype => exact iff_of_false (by simp [commonType]) (by simp [Integral])
  | var label shapeVar =>
      rw [commonType, map_scalarInteger_eq_ok_iff]
      simp [Integral, leafTypes]
  | any label => simp [commonType, Integral, leafTypes, Agree, eq_comm]
  | binary label op left right left_induction right_induction =>
      rw [commonType]
      simp only [bind_eq_ok_iff, left_induction, right_induction, join_eq_ok_iff, Integral,
        leafTypes, agree_append_iff, List.head?_append]
      constructor
      · rintro ⟨_, ⟨left_integral, left_agree, rfl⟩, _, ⟨right_integral, right_agree, rfl⟩, same,
          rfl⟩
        exact ⟨⟨left_integral, right_integral⟩, ⟨left_agree, right_agree, same⟩, rfl⟩
      · rintro ⟨⟨left_integral, right_integral⟩, ⟨left_agree, right_agree, same⟩, rfl⟩
        exact ⟨_, ⟨left_integral, left_agree, rfl⟩, _, ⟨right_integral, right_agree, rfl⟩, same,
          rfl⟩

/-- Some data type of integers is that of all leaves when they agree; wildcards alone have any. -/
theorem exists_counts_iff {types : List DataType} :
    (∃ dtype : DataType, dtype.Counts ∧ ∀ leafType ∈ types, leafType = dtype) ↔ Agree types := by
  constructor
  · rintro ⟨dtype, counts, all⟩
    refine ((forall_mem_counts_iff dtype types).mp fun leafType mem => ?_).1
    rw [all leafType mem]
    exact ⟨counts, rfl⟩
  · intro agree
    cases types with
    | nil => exact ⟨.int32, by decide, List.forall_mem_nil _⟩
    | cons first types =>
        exact ⟨first, (agree first List.mem_cons_self).1,
          fun leafType mem => (Option.some.inj (agree leafType mem).2).symm⟩

theorem isDimension_iff {extent : Extent} :
    extent.IsDimension ↔ (∀ value ∈ extent.asInt?, 0 ≤ value) ∧
      ∃ known, extent.commonType = .ok known := by
  simp only [commonType_eq_ok_iff]
  constructor
  · rintro ⟨nonnegative, integral, typed⟩
    exact ⟨nonnegative, _, integral, exists_counts_iff.mp typed, rfl⟩
  · rintro ⟨nonnegative, _, integral, agree, rfl⟩
    exact ⟨nonnegative, integral, exists_counts_iff.mpr agree⟩

theorem check_of_nonnegative {extent : Extent} (nonnegative : ∀ value ∈ extent.asInt?, 0 ≤ value) :
    extent.check = extent.commonType.map fun _ => () := by
  cases extent with
  | int label value dtype => exact if_neg (Int64.not_lt.mpr (nonnegative value rfl))
  | float | var | binary | any => rfl

/-- The check accepts the dimensions and nothing else. -/
theorem check_eq_ok_iff {extent : Extent} : extent.check = .ok () ↔ extent.IsDimension := by
  have typed_iff : extent.commonType.map (fun _ => ()) = .ok () ↔
      ∃ known, extent.commonType = .ok known := by
    cases extent.commonType <;> simp [Except.map]
  rw [isDimension_iff, ← typed_iff]
  cases extent with
  | int label value dtype =>
      by_cases negative : value < 0
      · simp [check, asInt?, negative]
      · simp [check, asInt?, negative, Int64.not_lt.mp negative]
  | _ => simp [check, asInt?]

end Extent

namespace TensorType

/-- The dimensions are checked in order up to the first one that is rejected. -/
theorem checkShape_cases (start : Nat) (shape : List Extent) :
    (checkShape start shape = .ok () ∧ ∀ extent ∈ shape, extent.IsDimension) ∨
      ∃ before extent after fault, shape = before ++ extent :: after ∧
        (∀ earlier ∈ before, earlier.IsDimension) ∧ extent.check = .error fault ∧
        checkShape start shape = .error (.invalidDimension (start + before.length) fault) := by
  induction shape generalizing start with
  | nil => exact Or.inl ⟨rfl, List.forall_mem_nil _⟩
  | cons extent shape induction =>
      rw [checkShape]
      cases checked : extent.check with
      | error fault =>
          exact Or.inr ⟨[], extent, shape, fault, rfl, List.forall_mem_nil _, checked, rfl⟩
      | ok accepted =>
          have fits : extent.IsDimension := Extent.check_eq_ok_iff.mp checked
          rcases induction (start + 1) with ⟨passed, all⟩ |
            ⟨before, rejected, after, fault, rfl, all, fault_eq, failed⟩
          · exact Or.inl ⟨passed, List.forall_mem_cons.mpr ⟨fits, all⟩⟩
          · refine Or.inr ⟨extent :: before, rejected, after, fault, rfl,
              List.forall_mem_cons.mpr ⟨fits, all⟩, fault_eq, ?_⟩
            dsimp only
            rw [failed, List.length_cons, Nat.add_assoc, Nat.add_comm 1]

/-- The positions of the extents that cannot serve as dimensions. -/
def misfits (shape : List Extent) : Set Nat :=
  {index | ∃ extent, shape[index]? = some extent ∧ ¬extent.IsDimension}

theorem isLeast_misfits {before after : List Extent} {extent : Extent}
    (all : ∀ earlier ∈ before, earlier.IsDimension) (unfit : ¬extent.IsDimension) :
    IsLeast (misfits (before ++ extent :: after)) before.length := by
  refine ⟨⟨extent, by simp, unfit⟩, ?_⟩
  rintro index ⟨earlier, found, earlier_unfit⟩
  by_contra inside
  rw [List.getElem?_append_left (by omega)] at found
  exact earlier_unfit (all earlier (List.mem_of_getElem? found))

/-- A tensor type is made of exactly the shapes that have only dimensions in them, with shape and
data type as they were given. From any other shape comes an error with the least position that is
unfit and the fault that is found there. -/
theorem make_of_dimensions (shape : List Extent) (dtype : DataType) :
    (∀ tensor, make shape dtype = .ok tensor ↔
      (∀ extent ∈ shape, extent.IsDimension) ∧ tensor = ⟨shape, dtype⟩) ∧
      ∀ error, make shape dtype = .error error ↔
        ∃ index fault, error = .invalidDimension index fault ∧ IsLeast (misfits shape) index ∧
          ∃ extent, shape[index]? = some extent ∧ extent.check = .error fault := by
  rcases checkShape_cases 0 shape with ⟨passed, all⟩ |
    ⟨before, extent, after, fault, rfl, all, fault_eq, failed⟩
  · have made : make shape dtype = .ok ⟨shape, dtype⟩ := by
      rw [make, passed]
      rfl
    rw [made]
    refine ⟨fun tensor => ⟨fun same => ⟨all, (Except.ok.inj same).symm⟩, ?_⟩, fun error => ?_⟩
    · rintro ⟨-, rfl⟩
      rfl
    · refine iff_of_false (by simp) ?_
      rintro ⟨index, fault, -, ⟨⟨extent, found, unfit⟩, -⟩, -⟩
      exact unfit (all extent (List.mem_of_getElem? found))
  · have rejected : make (before ++ extent :: after) dtype =
        .error (.invalidDimension before.length fault) := by
      rw [make, failed, Nat.zero_add]
      rfl
    have unfit : ¬extent.IsDimension := by
      intro fits
      rw [Extent.check_eq_ok_iff.mpr fits] at fault_eq
      contradiction
    have least : IsLeast (misfits (before ++ extent :: after)) before.length :=
      isLeast_misfits all unfit
    rw [rejected]
    refine ⟨fun tensor => ?_, fun error => ⟨fun same => ?_, ?_⟩⟩
    · exact iff_of_false (by simp) fun ⟨fit, _⟩ => unfit (fit extent (by simp))
    · exact ⟨before.length, fault, (Except.error.inj same).symm, least, extent, by simp, fault_eq⟩
    · rintro ⟨index, other, rfl, other_least, rejected_extent, found, other_eq⟩
      obtain rfl : index = before.length := other_least.unique least
      obtain rfl : extent = rejected_extent := by simpa using found
      rw [Except.error.inj (fault_eq.symm.trans other_eq)]

end TensorType

end ShapeTyping
