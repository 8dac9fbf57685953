import ShapeTyping.Proofs.Extent.Dimension

/-!
# The two data types of an extent

The data type of an extent is that of its leftmost leaf, and a wildcard passes for a 32-bit integer.
The check of a dimension takes all leaves into account, and wildcards take the data type of the
others. On what the check accepts, the two can differ only if the leftmost leaf is a wildcard.
-/

namespace ShapeTyping

namespace Extent

/-- The leaves from left to right, wildcards included. -/
def leaves : Extent → List Extent
  | binary _ _ left right => left.leaves ++ right.leaves
  | leaf => [leaf]

/-- The leftmost leaf is a wildcard. -/
def StartsWild (extent : Extent) : Prop := ∃ label, extent.leaves.head? = some (any label)

theorem exists_head_leaves (extent : Extent) : ∃ leaf, extent.leaves.head? = some leaf := by
  induction extent with
  | int | float | var | any => exact ⟨_, rfl⟩
  | binary label op left right left_induction =>
      obtain ⟨leaf, first⟩ := left_induction
      exact ⟨leaf, by rw [leaves, List.head?_append, first, Option.some_or]⟩

/-- The leftmost leaf decides on the data type. -/
theorem dtype_of_head {extent leaf : Extent} (first : extent.leaves.head? = some leaf) :
    extent.dtype = leaf.dtype := by
  induction extent with
  | int | float | var | any => rw [← Option.some.inj first]
  | binary label op left right left_induction =>
      obtain ⟨leaf', first'⟩ := left.exists_head_leaves
      rw [leaves, List.head?_append, first', Option.some_or] at first
      exact left_induction (first'.trans first)

theorem dtype_of_startsWild {extent : Extent} (wild : extent.StartsWild) :
    extent.dtype = .int32 := by
  obtain ⟨label, first⟩ := wild
  exact dtype_of_head first

theorem isAny_iff {extent : Extent} : extent.isAny = true ↔ ∃ label, extent = any label := by
  cases extent <;> simp [isAny]

theorem startsWild_iff {extent leaf : Extent} (first : extent.leaves.head? = some leaf) :
    extent.StartsWild ↔ leaf.isAny = true := by
  rw [StartsWild, first, isAny_iff]
  simp only [Option.some.injEq]

/-- The check sees the leaves that are no wildcards. -/
theorem leafTypes_eq (extent : Extent) :
    extent.leafTypes = (extent.leaves.filter fun leaf => !leaf.isAny).map dtype := by
  induction extent with
  | int | float | var | any => rfl
  | binary label op left right left_induction right_induction =>
      rw [leafTypes, leaves, List.filter_append, List.map_append, left_induction, right_induction]

theorem leafTypes_eq_nil_iff {extent : Extent} :
    extent.leafTypes = [] ↔ ∀ leaf ∈ extent.leaves, leaf.isAny = true := by
  rw [leafTypes_eq, List.map_eq_nil_iff, List.filter_eq_nil_iff]
  simp only [Bool.not_eq_true', Bool.not_eq_false]

/-- A leftmost leaf other than a wildcard is the first that the check sees. -/
theorem head?_leafTypes {extent leaf : Extent} (first : extent.leaves.head? = some leaf)
    (known : leaf.isAny = false) : extent.leafTypes.head? = some leaf.dtype := by
  obtain ⟨others, shape⟩ := List.head?_eq_some_iff.mp first
  rw [leafTypes_eq, shape, List.filter_cons_of_pos (by rw [known]; rfl)]
  rfl

theorem integral_of_leaves {extent : Extent} (all : ∀ leaf ∈ extent.leaves, leaf.isAny = true) :
    extent.Integral := by
  induction extent with
  | int | var | any => trivial
  | float label value dtype => exact absurd (all _ (List.mem_singleton_self _)) Bool.false_ne_true
  | binary label op left right left_induction right_induction =>
      rw [leaves, List.forall_mem_append] at all
      exact ⟨left_induction all.1, right_induction all.2⟩

theorem commonType_eq_ok_none_iff {extent : Extent} :
    extent.commonType = .ok none ↔ ∀ leaf ∈ extent.leaves, leaf.isAny = true := by
  rw [commonType_eq_ok_iff, eq_comm, List.head?_eq_none_iff, leafTypes_eq_nil_iff]
  constructor
  · exact fun typed => typed.2.2
  · intro all
    refine ⟨integral_of_leaves all, ?_, all⟩
    rw [leafTypes_eq_nil_iff.mpr all]
    exact List.forall_mem_nil _

/-- Where the check finds a data type, this is the data type of the extent, unless the leftmost leaf
is a wildcard and the extent passes for a 32-bit integer. The check finds none exactly when there
are only wildcards, and then the extent passes for a 32-bit integer too. -/
theorem dtype_eq_commonType_unless_wild (extent : Extent) :
    (∀ dtype, extent.commonType = .ok (some dtype) →
      (¬extent.StartsWild ∧ extent.dtype = dtype) ∨
        (extent.StartsWild ∧ extent.dtype = .int32)) ∧
      (extent.commonType = .ok none ↔ ∀ leaf ∈ extent.leaves, leaf.isAny = true) ∧
      (extent.commonType = .ok none → extent.dtype = .int32) := by
  obtain ⟨leaf, first⟩ := extent.exists_head_leaves
  refine ⟨fun dtype typed => ?_, commonType_eq_ok_none_iff, fun untyped => ?_⟩
  · by_cases wild : extent.StartsWild
    · exact Or.inr ⟨wild, dtype_of_startsWild wild⟩
    · have known : leaf.isAny = false := by
        rwa [startsWild_iff first, Bool.not_eq_true] at wild
      obtain ⟨-, -, found⟩ := commonType_eq_ok_iff.mp typed
      rw [head?_leafTypes first known] at found
      exact Or.inl ⟨wild, (dtype_of_head first).trans (Option.some.inj found).symm⟩
  · have all := commonType_eq_ok_none_iff.mp untyped
    have wild : leaf.isAny = true := all leaf (List.mem_of_mem_head? first)
    exact dtype_of_startsWild ((startsWild_iff first).mpr wild)

/-- A wildcard in front hides the data type that one behind leaves to be seen. -/
theorem dtype_of_wild_products :
    (binary none .mul (any none) (int none 7 .int64)).commonType = .ok (some .int64) ∧
      (binary none .mul (any none) (int none 7 .int64)).dtype = .int32 ∧
      (binary none .mul (int none 7 .int64) (any none)).commonType = .ok (some .int64) ∧
      (binary none .mul (int none 7 .int64) (any none)).dtype = .int64 ∧
      (binary none .mul (any none) (any none)).commonType = .ok none ∧
      (binary none .mul (any none) (any none)).dtype = .int32 := by
  have front : (binary none .mul (any none) (int none 7 .int64)).commonType =
      .ok (some .int64) := by rfl
  have behind : (binary none .mul (int none 7 .int64) (any none)).commonType =
      .ok (some .int64) := by rfl
  have wild : (binary none .mul (any none) (int none 7 .int64)).StartsWild := ⟨none, rfl⟩
  have known : ¬(binary none .mul (int none 7 .int64) (any none)).StartsWild := by
    rintro ⟨label, ⟨⟩⟩
  refine ⟨front, ?_, behind, ?_, rfl, (dtype_eq_commonType_unless_wild _).2.2 rfl⟩
  · rcases (dtype_eq_commonType_unless_wild _).1 _ front with seen | hidden
    · exact absurd wild seen.1
    · exact hidden.2
  · rcases (dtype_eq_commonType_unless_wild _).1 _ behind with seen | hidden
    · exact seen.2
    · exact absurd hidden.1 known

end Extent

end ShapeTyping
