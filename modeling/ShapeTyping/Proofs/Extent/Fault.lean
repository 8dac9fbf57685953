import ShapeTyping.Proofs.Extent.Dimension

/-!
# The first fault of an extent

The operands of an operation are looked at before the operation itself, the left one first. In this
order each node can be at fault on its own: a leaf through its data type, and an operation through
operands without a fault that have different data types. The check of a dimension reports the first
node at fault; only a negative literal is reported as such, whatever its data type is.
-/

namespace ShapeTyping

theorem bind_eq_error_iff {ε α β : Type} {first : Except ε α} {next : α → Except ε β} {fault : ε} :
    first >>= next = .error fault ↔
      first = .error fault ∨ ∃ value, first = .ok value ∧ next value = .error fault := by
  cases first <;> simp [bind, Except.bind]

namespace DataType

/-- Integers of any width and number of lanes, except booleans. -/
def OfIntegers (dtype : DataType) : Prop :=
  (dtype.code = .int ∨ dtype.code = .uint) ∧ dtype.isBool = false

/-- Why a leaf of a data type is at fault. -/
inductive AtFault : DataType → DimensionFault → Prop
  | notInteger {dtype : DataType} (others : ¬dtype.OfIntegers) : AtFault dtype (.notInteger dtype)
  | notScalar {dtype : DataType} (integers : dtype.OfIntegers) (vectors : dtype.lanes ≠ 1) :
      AtFault dtype (.notScalar dtype)

theorem scalarInteger_eq_error_iff {dtype : DataType} {fault : DimensionFault} :
    dtype.scalarInteger = .error fault ↔ dtype.AtFault fault := by
  have integers_iff : dtype.isInteger = true ↔ dtype.OfIntegers := isInteger_iff
  have scalar_iff : dtype.isScalar = true ↔ dtype.lanes = 1 := beq_iff_eq
  constructor
  · intro rejected
    rw [scalarInteger] at rejected
    split_ifs at rejected with others vectors
    · obtain rfl := Except.error.inj rejected
      rw [Bool.not_eq_true', ← Bool.not_eq_true, integers_iff] at others
      exact .notInteger others
    · obtain rfl := Except.error.inj rejected
      rw [Bool.not_eq_true', Bool.not_eq_false, integers_iff] at others
      rw [Bool.not_eq_true', ← Bool.not_eq_true, scalar_iff] at vectors
      exact .notScalar others vectors
  · rintro (others | ⟨integers, vectors⟩)
    · rw [← integers_iff, Bool.not_eq_true] at others
      simp [scalarInteger, others]
    · rw [← integers_iff] at integers
      rw [Ne, ← scalar_iff, Bool.not_eq_true] at vectors
      simp [scalarInteger, integers, vectors]

end DataType

namespace Extent

/-- The nodes of an extent, operands before the operation on them and left before right. -/
def postorder : Extent → List Extent
  | binary label op left right =>
      left.postorder ++ right.postorder ++ [binary label op left right]
  | leaf => [leaf]

theorem sizeOf_le_of_mem_postorder {extent node : Extent} (mem : node ∈ extent.postorder) :
    sizeOf node ≤ sizeOf extent := by
  induction extent with
  | int | float | var | any => rw [List.mem_singleton.mp mem]
  | binary label op left right left_induction right_induction =>
      rw [postorder, List.mem_append, List.mem_append, List.mem_singleton] at mem
      rw [binary.sizeOf_spec]
      rcases mem with (mem | mem) | rfl
      · have bound := left_induction mem
        omega
      · have bound := right_induction mem
        omega
      · rw [binary.sizeOf_spec]

/-- There are leaves other than wildcards, and they all have the data type. -/
def SharesType (extent : Extent) (dtype : DataType) : Prop :=
  extent.leafTypes ≠ [] ∧ ∀ leafType ∈ extent.leafTypes, leafType = dtype

/-- Why a node is at fault on its own. -/
def AtFault (node : Extent) (fault : DimensionFault) : Prop :=
  match node with
  | any _ => False
  | int _ _ dtype => dtype.AtFault fault
  | float _ _ dtype => fault = .notInteger dtype
  | var _ shapeVar => shapeVar.dtype.AtFault fault
  | binary _ _ left right =>
      (∀ inner ∈ left.postorder, ∀ other, ¬inner.AtFault other) ∧
        (∀ inner ∈ right.postorder, ∀ other, ¬inner.AtFault other) ∧
        ∃ leftType rightType, left.SharesType leftType ∧ right.SharesType rightType ∧
          leftType ≠ rightType ∧ fault = .mismatch leftType rightType
termination_by sizeOf node
decreasing_by
  all_goals
    have bound := sizeOf_le_of_mem_postorder ‹_›
    simp only [binary.sizeOf_spec]
    omega

/-- No node of a list is at fault. -/
def Faultless (nodes : List Extent) : Prop := ∀ node ∈ nodes, ∀ fault, ¬node.AtFault fault

/-- Some node of a list is at fault, and none before it. -/
def FirstFault (nodes : List Extent) (fault : DimensionFault) : Prop :=
  ∃ before node after, nodes = before ++ node :: after ∧ Faultless before ∧ node.AtFault fault

theorem faultless_cons {node : Extent} {nodes : List Extent} :
    Faultless (node :: nodes) ↔ (∀ fault, ¬node.AtFault fault) ∧ Faultless nodes :=
  List.forall_mem_cons

theorem firstFault_nil (fault : DimensionFault) : ¬FirstFault [] fault := by
  rintro ⟨before, node, after, shape, -⟩
  simp at shape

theorem firstFault_cons {node : Extent} {nodes : List Extent} {fault : DimensionFault} :
    FirstFault (node :: nodes) fault ↔
      node.AtFault fault ∨ (∀ other, ¬node.AtFault other) ∧ FirstFault nodes fault := by
  constructor
  · rintro ⟨before, first, after, shape, faultless, faulty⟩
    cases before with
    | nil =>
        obtain ⟨rfl, -⟩ := List.cons.inj shape
        exact Or.inl faulty
    | cons earlier before =>
        obtain ⟨rfl, rfl⟩ := List.cons.inj shape
        rw [faultless_cons] at faultless
        exact Or.inr ⟨faultless.1, before, first, after, rfl, faultless.2, faulty⟩
  · rintro (faulty | ⟨sound, before, first, after, rfl, faultless, faulty⟩)
    · exact ⟨[], node, nodes, rfl, List.forall_mem_nil _, faulty⟩
    · exact ⟨node :: before, first, after, rfl, faultless_cons.mpr ⟨sound, faultless⟩, faulty⟩

theorem firstFault_singleton {node : Extent} {fault : DimensionFault} :
    FirstFault [node] fault ↔ node.AtFault fault := by
  simp [firstFault_cons, firstFault_nil]

theorem firstFault_append {nodes others : List Extent} {fault : DimensionFault} :
    FirstFault (nodes ++ others) fault ↔
      FirstFault nodes fault ∨ Faultless nodes ∧ FirstFault others fault := by
  induction nodes with
  | nil => simp [firstFault_nil, Faultless]
  | cons node nodes induction =>
      rw [List.cons_append, firstFault_cons, firstFault_cons, faultless_cons, induction, and_or_left,
        or_assoc, and_assoc]

theorem exists_firstFault_iff {nodes : List Extent} :
    (∃ fault, FirstFault nodes fault) ↔ ¬Faultless nodes := by
  induction nodes with
  | nil => simp [firstFault_nil, Faultless]
  | cons node nodes induction =>
      simp only [firstFault_cons, exists_or, exists_and_left, induction, faultless_cons,
        ← not_exists]
      tauto

theorem map_scalarInteger_eq_error_iff {dtype : DataType} {fault : DimensionFault} :
    dtype.scalarInteger.map some = .error fault ↔ dtype.AtFault fault := by
  rw [← DataType.scalarInteger_eq_error_iff]
  cases dtype.scalarInteger <;> simp [Except.map]

theorem join_eq_error_iff {left right : Option DataType} {fault : DimensionFault} :
    join left right = .error fault ↔
      ∃ leftType rightType, left = some leftType ∧ right = some rightType ∧ leftType ≠ rightType ∧
        fault = .mismatch leftType rightType := by
  cases left with
  | none => cases right <;> simp [join]
  | some leftType =>
      cases right with
      | none => simp [join]
      | some rightType => by_cases same : leftType = rightType <;> simp [join, same, eq_comm]

/-- The leaves share the data type that is found for them. -/
theorem sharesType_iff {extent : Extent} {known : Option DataType}
    (typed : extent.commonType = .ok known) (dtype : DataType) :
    extent.SharesType dtype ↔ known = some dtype := by
  obtain ⟨-, agree, rfl⟩ := commonType_eq_ok_iff.mp typed
  rw [SharesType]
  cases types : extent.leafTypes with
  | nil => simp
  | cons first others =>
      rw [types] at agree
      constructor
      · rintro ⟨-, all⟩
        exact congrArg some (all first List.mem_cons_self)
      · intro head
        exact ⟨List.cons_ne_nil first others, fun leafType mem =>
          Option.some.inj ((agree leafType mem).2.symm.trans head)⟩

/-- Where the faults are reported, a data type is found exactly when there are none. -/
theorem faultless_iff_of_reported {extent : Extent}
    (reported : ∀ fault, extent.commonType = .error fault ↔ FirstFault extent.postorder fault) :
    Faultless extent.postorder ↔ ∃ known, extent.commonType = .ok known := by
  rw [← not_iff_not, ← exists_firstFault_iff]
  simp only [← reported]
  cases extent.commonType <;> simp

/-- The first fault of an operation is one of its left operand, else one of its right operand, else
its own. -/
theorem firstFault_postorder_binary {label : Label} {op : ExtentOp} {left right : Extent}
    {fault : DimensionFault} :
    FirstFault (binary label op left right).postorder fault ↔
      FirstFault left.postorder fault ∨
        Faultless left.postorder ∧
          (FirstFault right.postorder fault ∨
            Faultless right.postorder ∧
              ∃ leftType rightType, left.SharesType leftType ∧ right.SharesType rightType ∧
                leftType ≠ rightType ∧ fault = .mismatch leftType rightType) := by
  rw [postorder, List.append_assoc, firstFault_append, firstFault_append, firstFault_singleton,
    AtFault]
  constructor
  · rintro (first | ⟨left_sound, first | ⟨right_sound, -, -, differ⟩⟩)
    · exact Or.inl first
    · exact Or.inr ⟨left_sound, Or.inl first⟩
    · exact Or.inr ⟨left_sound, Or.inr ⟨right_sound, differ⟩⟩
  · rintro (first | ⟨left_sound, first | ⟨right_sound, differ⟩⟩)
    · exact Or.inl first
    · exact Or.inr ⟨left_sound, Or.inl first⟩
    · exact Or.inr ⟨left_sound, Or.inr ⟨right_sound, left_sound, right_sound, differ⟩⟩

/-- The search for a common data type ends at the first node at fault. -/
theorem commonType_eq_error_iff (extent : Extent) (fault : DimensionFault) :
    extent.commonType = .error fault ↔ FirstFault extent.postorder fault := by
  induction extent generalizing fault with
  | any label => simp [commonType, postorder, firstFault_singleton, AtFault]
  | int label value dtype =>
      rw [commonType, map_scalarInteger_eq_error_iff]
      simp [postorder, firstFault_singleton, AtFault]
  | float label value dtype =>
      simp [commonType, postorder, firstFault_singleton, AtFault, eq_comm]
  | var label shapeVar =>
      rw [commonType, map_scalarInteger_eq_error_iff]
      simp [postorder, firstFault_singleton, AtFault]
  | binary label op left right left_induction right_induction =>
      rw [commonType, firstFault_postorder_binary, bind_eq_error_iff, left_induction,
        faultless_iff_of_reported left_induction, ← exists_and_right]
      refine or_congr_right (exists_congr fun known => and_congr_right fun left_typed => ?_)
      rw [bind_eq_error_iff, right_induction, faultless_iff_of_reported right_induction,
        ← exists_and_right]
      refine or_congr_right (exists_congr fun known' => and_congr_right fun right_typed => ?_)
      simp only [join_eq_error_iff, sharesType_iff left_typed, sharesType_iff right_typed]

theorem not_firstFault_negative (nodes : List Extent) (value : Int64) :
    ¬FirstFault nodes (.negative value) := by
  rintro ⟨before, node, after, -, -, faulty⟩
  cases node with
  | any | float => simp [AtFault] at faulty
  | int | var =>
      rw [AtFault] at faulty
      cases faulty
  | binary =>
      rw [AtFault] at faulty
      obtain ⟨-, -, _, _, -, -, -, ⟨⟩⟩ := faulty

/-- An extent is rejected as negative exactly when it is a negative literal, whatever the data type.
Any other extent is rejected exactly for the first of its nodes that is at fault. -/
theorem check_reports_first_fault (extent : Extent) :
    (∀ value, extent.check = .error (.negative value) ↔ extent.asInt? = some value ∧ value < 0) ∧
      ((∀ value ∈ extent.asInt?, 0 ≤ value) →
        ∀ fault, extent.check = .error fault ↔ FirstFault extent.postorder fault) := by
  have reported : (∀ value ∈ extent.asInt?, 0 ≤ value) →
      ∀ fault, extent.check = .error fault ↔ FirstFault extent.postorder fault := by
    intro nonnegative fault
    rw [check_of_nonnegative nonnegative, ← commonType_eq_error_iff]
    cases extent.commonType <;> simp [Except.map]
  refine ⟨fun value => ?_, reported⟩
  by_cases nonnegative : ∀ value ∈ extent.asInt?, 0 ≤ value
  · rw [reported nonnegative]
    refine iff_of_false (not_firstFault_negative _ value) ?_
    rintro ⟨literal, negative⟩
    exact Int64.not_lt.mpr (nonnegative value literal) negative
  · cases extent with
    | int label literal dtype =>
        have negative : literal < 0 := by simpa [asInt?] using nonnegative
        simp only [check, asInt?, if_pos negative, Except.error.injEq, DimensionFault.negative.injEq,
          Option.some.injEq]
        constructor
        · rintro rfl
          exact ⟨rfl, negative⟩
        · exact And.left
    | float | var | binary | any => simp [asInt?] at nonnegative

/-- A wildcard times two, less a literal of the given data type, plus a floating-point literal. -/
def faultySum (dtype : DataType) : Extent :=
  binary none .add (binary none .sub (binary none .mul (any none) (int32 2)) (int none (-3) dtype))
    (float none ⟨0⟩ .float32)

/-- Operands that differ are reported before a floating-point literal to their right, and that
literal is reported where they agree. -/
theorem faultySum_first_fault :
    (∀ value ∈ (faultySum .int64).asInt?, 0 ≤ value) ∧
      FirstFault (faultySum .int64).postorder (.mismatch .int32 .int64) ∧
      FirstFault (faultySum .int32).postorder (.notInteger .float32) ∧
      (int none (-3) .float32).check = .error (.negative (-3)) := by
  have unsigned : ∀ dtype, ∀ value ∈ (faultySum dtype).asInt?, 0 ≤ value := by
    rintro dtype value ⟨⟩
  refine ⟨unsigned _, ?_, ?_, ?_⟩
  · exact ((check_reports_first_fault _).2 (unsigned _) _).mp rfl
  · exact ((check_reports_first_fault _).2 (unsigned _) _).mp rfl
  · exact ((check_reports_first_fault _).1 (-3)).mpr ⟨rfl, by decide⟩

end Extent

end ShapeTyping
