import ShapeTyping.Proofs.Text.Reading

/-!
# Reading data types

The text of a data type is a stem of letters, a width that stands for one lane, and the number of
lanes after an `x`. No stem has an `x` or a digit in it, so the three parts can be told apart.
-/

namespace ShapeTyping

theorem TypeCode.word_injective : Function.Injective word := by
  intro code code'
  cases code <;> cases code' <;> decide

namespace DataType

/-- There is a lane, and handles have the width that their text stands for. -/
def Proper (dtype : DataType) : Prop :=
  1 ≤ dtype.lanes ∧ (dtype.code = .handle → dtype.bits = 64)

instance : DecidablePred Proper := fun _ => inferInstanceAs (Decidable (_ ∧ _))

/-- The letters that the text starts with. -/
def stem (dtype : DataType) : String := if dtype.isBool then "bool" else dtype.code.word

/-- The width of a lane, unless the stem says it. -/
def width (dtype : DataType) : List Char :=
  if dtype.isBool ∨ dtype.isHandle then [] else dtype.bits.toNat.repr.toList

/-- The number of lanes, unless there is just one. -/
def vector (dtype : DataType) : List Char :=
  if 1 < dtype.lanes then 'x' :: dtype.lanes.toNat.repr.toList else []

theorem toList_render (dtype : DataType) :
    dtype.render.toList = (dtype.stem.toList ++ dtype.width) ++ dtype.vector := by
  have base_eq : dtype.base.toList = dtype.stem.toList ++ dtype.width := by
    by_cases boolean : dtype.isBool
    · simp [base, stem, width, boolean]
    · by_cases pointer : dtype.isHandle
      · have code : dtype.code = .handle := by simpa [isHandle] using pointer
        simp [base, stem, width, boolean, pointer, code, TypeCode.word]
      · simp [base, stem, width, boolean, pointer]
  rw [render, vector]
  split
  · rw [String.toList_append, String.toList_append, base_eq, List.append_assoc]
    rfl
  · rw [base_eq, List.append_nil]

theorem stem_letters (dtype : DataType) : ∀ char ∈ dtype.stem.toList,
    Text.isWordChar char = true ∧ char ≠ 'x' ∧ char.isDigit = false := by
  have letters : dtype.stem.toList.all fun char =>
      Text.isWordChar char && (char != 'x' && !char.isDigit) := by
    rw [stem]
    split
    · decide
    · cases dtype.code <;> decide
  simpa using letters

theorem width_digits (dtype : DataType) : ∀ char ∈ dtype.width, char.isDigit = true := by
  rw [width]
  split
  · exact List.forall_mem_nil _
  · exact Text.isDigit_of_mem_repr

/-- No `x` stands before the number of lanes. -/
theorem base_ne_x (dtype : DataType) :
    ∀ char ∈ dtype.stem.toList ++ dtype.width, (char != 'x') = true := by
  simp only [List.forall_mem_append, bne_iff_ne]
  exact ⟨fun char mem => (dtype.stem_letters char mem).2.1,
    fun char mem => Text.ne_of_isDigit (dtype.width_digits char mem) rfl⟩

theorem isWordChar_of_mem_render (dtype : DataType) :
    ∀ char ∈ dtype.render.toList, Text.isWordChar char = true := by
  rw [toList_render, List.forall_mem_append, List.forall_mem_append]
  refine ⟨⟨fun char mem => (dtype.stem_letters char mem).1, fun char mem => ?_⟩, ?_⟩
  · exact Text.isWordChar_of_isDigit (dtype.width_digits char mem)
  · rw [vector]
    split
    · rw [List.forall_mem_cons]
      exact ⟨by decide, fun char mem =>
        Text.isWordChar_of_isDigit (Text.isDigit_of_mem_repr char mem)⟩
    · exact List.forall_mem_nil _

theorem code_of_isBool {dtype : DataType} (boolean : dtype.isBool = true) :
    dtype.code = .uint ∧ dtype.bits = 1 := by
  simpa [isBool] using boolean

theorem stem_inj {left right : DataType} (same : left.stem = right.stem) :
    left.isBool = right.isBool ∧ left.code = right.code := by
  have word_ne : ∀ code : TypeCode, "bool" ≠ code.word := by
    intro code
    cases code <;> decide
  cases boolean : left.isBool <;> cases boolean' : right.isBool <;>
    simp only [stem, boolean, boolean', Bool.false_eq_true, if_true, if_false] at same
  · exact ⟨rfl, TypeCode.word_injective same⟩
  · exact absurd same.symm (word_ne left.code)
  · exact absurd same (word_ne right.code)
  · exact ⟨rfl, (code_of_isBool boolean).1.trans (code_of_isBool boolean').1.symm⟩

theorem bits_eq {left right : DataType} (proper : left.Proper) (proper' : right.Proper)
    (same_bool : left.isBool = right.isBool) (same_code : left.code = right.code)
    (same : left.width = right.width) : left.bits = right.bits := by
  by_cases boolean : left.isBool
  · rw [(code_of_isBool boolean).2, (code_of_isBool (same_bool ▸ boolean)).2]
  · by_cases pointer : left.code = .handle
    · rw [proper.2 pointer, proper'.2 (same_code ▸ pointer)]
    · have boolean' : right.isBool = false := by simpa [same_bool] using boolean
      have pointer' : right.code ≠ .handle := same_code ▸ pointer
      simp only [width, isHandle, boolean, boolean', beq_iff_eq, pointer, pointer',
        Bool.false_eq_true, or_self, if_false] at same
      exact UInt8.toNat_inj.mp (Nat.repr_inj.mp (String.toList_inj.mp same))

theorem lanes_eq {left right : DataType} (proper : left.Proper) (proper' : right.Proper)
    (same : left.vector = right.vector) : left.lanes = right.lanes := by
  by_cases several : 1 < left.lanes <;> by_cases several' : 1 < right.lanes <;>
    simp only [vector, several, several', if_true, if_false] at same
  · exact UInt16.toNat_inj.mp (Nat.repr_inj.mp (String.toList_inj.mp (List.cons.inj same).2))
  · contradiction
  · contradiction
  · have single : left.lanes = 1 := UInt16.le_antisymm (UInt16.not_lt.mp several) proper.1
    have single' : right.lanes = 1 := UInt16.le_antisymm (UInt16.not_lt.mp several') proper'.1
    rw [single, single']

/-- Proper data types with one text are the same. -/
theorem render_inj {left right : DataType} (proper : left.Proper) (proper' : right.Proper)
    (same : left.render = right.render) : left = right := by
  have vector_head : ∀ dtype : DataType, ∀ char ∈ dtype.vector.head?, (char != 'x') = false := by
    intro dtype
    rw [vector]
    split <;> simp
  have stem_all : ∀ dtype : DataType, ∀ char ∈ dtype.stem.toList, (!char.isDigit) = true := by
    intro dtype char mem
    rw [(dtype.stem_letters char mem).2.2]
    rfl
  have width_head : ∀ dtype : DataType, ∀ char ∈ dtype.width.head?, (!char.isDigit) = false := by
    intro dtype char found
    rw [dtype.width_digits char (List.mem_of_mem_head? found)]
    rfl
  rw [← String.toList_inj, toList_render, toList_render] at same
  obtain ⟨same_base, same_vector⟩ := Text.append_inj_of_forall left.base_ne_x right.base_ne_x
    (vector_head left) (vector_head right) same
  obtain ⟨same_stem, same_width⟩ := Text.append_inj_of_forall (stem_all left) (stem_all right)
    (width_head left) (width_head right) same_base
  obtain ⟨same_bool, same_code⟩ := stem_inj (String.toList_inj.mp same_stem)
  have same_bits := bits_eq proper proper' same_bool same_code same_width
  have same_lanes := lanes_eq proper proper' same_vector
  obtain ⟨code, bits, lanes⟩ := left
  obtain ⟨code', bits', lanes'⟩ := right
  congr

theorem reads_dtype {dtype : DataType} (proper : dtype.Proper) :
    Text.Reads (fun dtype : DataType => dtype.render.toList) id Proper dtype :=
  Text.reads_of_word (fun dtype _ => dtype.isWordChar_of_mem_render)
    (fun _ _ proper proper' same => render_inj proper proper' (String.toList_inj.mp same)) proper

end DataType

end ShapeTyping
