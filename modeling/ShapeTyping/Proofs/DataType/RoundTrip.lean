import Mathlib.Data.List.TakeDrop
import ShapeTyping.Proofs.DataType.Text

/-!
# Data types read back

A data type can be named when it has a width and a lane and, as a handle, 64 bits. Reading the text
of such a data type gives it back, and whatever text is read names such a data type. Other spellings
of a data type are therefore read as its own text is.
-/

namespace ShapeTyping

namespace Numeral

theorem unsigned_of_isDigit {digits : List Char} (all : ∀ char ∈ digits, char.isDigit = true) :
    unsigned digits = digits := by
  cases digits with
  | nil => rfl
  | cons first rest =>
      have no_sign : first ≠ '+' := Text.ne_of_isDigit (all first List.mem_cons_self) rfl
      rw [unsigned]
      rintro tail shape
      exact no_sign (List.cons.inj shape).1

theorem ofDigits?_repr (value : Nat) : ofDigits? value.repr.toList = some value := by
  have nonempty : value.repr.toList.isEmpty = false := by
    obtain ⟨first, rest, shape, -⟩ := Text.exists_head_repr value
    rw [shape]
    rfl
  have digits : value.repr.toList.all Char.isDigit = true :=
    List.all_eq_true.mpr Text.isDigit_of_mem_repr
  have denoted : Nat.ofDigitChars 10 value.repr.toList 0 = value := by
    rw [Nat.toList_repr]
    exact Nat.ofDigitChars_toDigits (by decide) (by decide)
  rw [ofDigits?, nonempty, digits, denoted]
  rfl

/-- The text of a number in range denotes it. -/
theorem positive?_repr {bound value : Nat} (positive : 0 < value) (bounded : value < bound) :
    positive? bound value.repr.toList = some value := by
  rw [positive?, unsigned_of_isDigit Text.isDigit_of_mem_repr, ofDigits?_repr, Option.filter_some,
    if_pos (by simp [positive, bounded])]

end Numeral

namespace DataType

/-- There is a width and a lane, and handles have the width that their text stands for. -/
def Nameable (dtype : DataType) : Prop := 1 ≤ dtype.bits ∧ dtype.Proper

instance : DecidablePred Nameable := fun _ => inferInstanceAs (Decidable (_ ∧ _))

section Reading

variable {dtype : DataType}

/-- The first `x` of the text stands before the number of lanes. -/
theorem span_render (dtype : DataType) :
    dtype.render.toList.span (· != 'x') = (dtype.stem.toList ++ dtype.width, dtype.vector) := by
  have vector_ends : dtype.vector.takeWhile (· != 'x') = [] ∧
      dtype.vector.dropWhile (· != 'x') = dtype.vector := by
    rw [vector]
    split <;> exact ⟨rfl, rfl⟩
  rw [toList_render, List.span_eq_takeWhile_dropWhile, List.takeWhile_append_of_pos dtype.base_ne_x,
    List.dropWhile_append_of_pos dtype.base_ne_x, vector_ends.1, vector_ends.2, List.append_nil]

theorem readLanes?_vector (proper : dtype.Proper) :
    readLanes? dtype.vector.tail? = some dtype.lanes := by
  rw [vector]
  split
  next several =>
    have positive : 0 < dtype.lanes.toNat := by
      have bound : 1 < dtype.lanes.toNat := UInt16.lt_iff_toNat_lt.mp several
      omega
    have bounded : dtype.lanes.toNat < 65536 := dtype.lanes.toNat_lt
    rw [List.tail?_cons, readLanes?, Numeral.positive?_repr positive bounded, Option.map_some,
      Nat.toUInt16_eq, UInt16.ofNat_toNat]
  next several =>
    have single : dtype.lanes = 1 := UInt16.le_antisymm (UInt16.not_lt.mp several) proper.1
    rw [single]
    rfl

theorem width_eq_nil_iff (dtype : DataType) :
    dtype.width = [] ↔ dtype.isBool = true ∨ dtype.isHandle = true := by
  rw [width]
  split
  next spelled => exact iff_of_true rfl spelled
  next other =>
    obtain ⟨first, rest, shape, -⟩ := Text.exists_head_repr dtype.bits.toNat
    refine iff_of_false ?_ other
    rw [shape]
    exact List.cons_ne_nil first rest

/-- A width tells a text from every word without digits. -/
theorem stem_append_width_ne {word : List Char} (letters : word.all fun char => !char.isDigit)
    (sized : dtype.width ≠ []) : dtype.stem.toList ++ dtype.width ≠ word := by
  intro same
  obtain ⟨char, mem⟩ := List.exists_mem_of_ne_nil _ sized
  have no_digit := List.all_eq_true.mp letters char (same ▸ List.mem_append_right _ mem)
  rw [dtype.width_digits char mem] at no_digit
  contradiction

/-- Of the words that open a text with a width, the one that was written is found. -/
theorem findSome?_word {code : TypeCode} (sized : code ≠ .handle) (numeral : List Char) :
    (sizedCodes.findSome? fun other =>
      (Text.dropWord? other.word.toList (code.word.toList ++ numeral)).map (other, ·)) =
        some (code, numeral) := by
  cases code with
  | handle => contradiction
  | int | uint | float | bfloat => rfl

theorem readSized?_base (nameable : dtype.Nameable) (sized : dtype.width ≠ []) :
    readSized? (dtype.stem.toList ++ dtype.width) = some (single dtype.code dtype.bits) := by
  have spelled := mt dtype.width_eq_nil_iff.mpr sized
  rw [not_or] at spelled
  have stem_eq : dtype.stem = dtype.code.word := if_neg spelled.1
  have width_eq : dtype.width = dtype.bits.toNat.repr.toList := if_neg (not_or.mpr spelled)
  have no_handle : dtype.code ≠ .handle := by
    intro pointer
    exact spelled.2 (by simp [isHandle, pointer])
  have positive : 0 < dtype.bits.toNat := UInt8.le_iff_toNat_le.mp nameable.1
  have bounded : dtype.bits.toNat < 256 := dtype.bits.toNat_lt
  rw [readSized?, stem_eq, width_eq, findSome?_word no_handle]
  simp only [Option.bind_eq_bind, Option.bind_some]
  rw [Numeral.positive?_repr positive bounded, Option.bind_some, Nat.toUInt8_eq, UInt8.ofNat_toNat]

theorem readBase?_base (nameable : dtype.Nameable) :
    readBase? (dtype.stem.toList ++ dtype.width) = some (single dtype.code dtype.bits) := by
  by_cases spelled : dtype.width = []
  · rw [spelled, List.append_nil]
    rcases dtype.width_eq_nil_iff.mp spelled with boolean | pointer
    · obtain ⟨code, bits⟩ := code_of_isBool boolean
      rw [stem, if_pos boolean, code, bits]
      rfl
    · have code : dtype.code = .handle := by simpa [isHandle] using pointer
      have boolean : ¬dtype.isBool = true := by simp [isBool, code]
      rw [stem, if_neg boolean, code, nameable.2.2 code]
      rfl
  · rw [readBase?, if_neg (stem_append_width_ne (by decide) spelled),
      if_neg (stem_append_width_ne (by decide) spelled)]
    exact readSized?_base nameable spelled

/-- The text of a data type is read as that data type. -/
theorem parse?_render (nameable : dtype.Nameable) : parse? dtype.render = some dtype := by
  rw [parse?, span_render]
  simp only [readLanes?_vector nameable.2, readBase?_base nameable, Option.bind_eq_bind,
    Option.bind_some]
  rfl

/-- What is read as a code and a width is the word of the code and a numeral of the width. -/
theorem exists_of_readSized? {text : List Char} (read : readSized? text = some dtype) :
    ∃ code numeral bits, code ≠ .handle ∧ text = code.word.toList ++ numeral ∧
      Numeral.positive? 256 numeral = some bits ∧ dtype = single code bits.toUInt8 := by
  obtain ⟨⟨code, numeral⟩, found, sized⟩ := Option.bind_eq_some_iff.mp read
  obtain ⟨bits, denoted, made⟩ := Option.bind_eq_some_iff.mp sized
  obtain ⟨other, listed, dropped⟩ := List.exists_of_findSome?_eq_some found
  obtain ⟨rest, cut, same⟩ := Option.map_eq_some_iff.mp dropped
  obtain ⟨rfl, rfl⟩ := Prod.mk.inj same
  have no_handle : other ≠ .handle := by
    rintro rfl
    simp [sizedCodes] at listed
  exact ⟨other, rest, bits, no_handle, Text.dropWord?_eq_some_iff.mp cut, denoted,
    (Option.some.inj made).symm⟩

theorem nameable_of_readSized? {text : List Char} (read : readSized? text = some dtype) :
    dtype.Nameable := by
  obtain ⟨code, numeral, bits, no_handle, -, denoted, rfl⟩ := exists_of_readSized? read
  obtain ⟨positive, bounded⟩ := Numeral.positive?_bounds denoted
  refine ⟨?_, UInt16.le_refl 1, fun pointer => absurd pointer no_handle⟩
  have kept : bits.toUInt8.toNat = bits := Nat.mod_eq_of_lt bounded
  exact UInt8.le_iff_toNat_le.mpr (by rw [single, kept]; exact positive)

theorem nameable_of_readBase? {text : List Char} (read : readBase? text = some dtype) :
    dtype.Nameable := by
  rw [readBase?] at read
  split at read
  next =>
    obtain rfl := Option.some.inj read
    decide
  next =>
    split at read
    next =>
      obtain rfl := Option.some.inj read
      decide
    next => exact nameable_of_readSized? read

theorem positive_of_readLanes? {numeral : Option (List Char)} {lanes : UInt16}
    (read : readLanes? numeral = some lanes) : 1 ≤ lanes := by
  cases numeral with
  | none =>
      obtain rfl := Option.some.inj read
      exact UInt16.le_refl 1
  | some numeral =>
      obtain ⟨value, denoted, rfl⟩ := Option.map_eq_some_iff.mp read
      obtain ⟨positive, bounded⟩ := Numeral.positive?_bounds denoted
      have kept : value.toUInt16.toNat = value := Nat.mod_eq_of_lt bounded
      exact UInt16.le_iff_toNat_le.mpr (by rw [kept]; exact positive)

/-- Whatever is read can be named. -/
theorem nameable_of_parse? {text : String} (read : parse? text = some dtype) :
    dtype.Nameable := by
  obtain ⟨lanes, lanes_read, read⟩ := Option.bind_eq_some_iff.mp read
  obtain ⟨scalar, scalar_read, read⟩ := Option.bind_eq_some_iff.mp read
  obtain rfl := Option.some.inj read
  obtain ⟨bits, -, handle⟩ := nameable_of_readBase? scalar_read
  exact ⟨bits, positive_of_readLanes? lanes_read, handle⟩

theorem parse_eq_ok_iff {text : String} : parse text = .ok dtype ↔ parse? text = some dtype := by
  rw [parse]
  cases parse? text <;> simp

end Reading

/-- Reading undoes writing on the data types that can be named, these are the ones that are read
from any text, a text that is read at all is read as the text of what it names, and no two of them
have one text. -/
theorem text_round_trip :
    (∀ dtype : DataType, dtype.Nameable → parse dtype.render = .ok dtype) ∧
      (∀ dtype : DataType, (∃ text, parse text = .ok dtype) ↔ dtype.Nameable) ∧
      (∀ (text : String) (dtype : DataType), parse text = .ok dtype →
        parse dtype.render = parse text) ∧
      ∀ left right : DataType, left.Nameable → right.Nameable → left.render = right.render →
        left = right := by
  have read_back : ∀ dtype : DataType, dtype.Nameable → parse dtype.render = .ok dtype :=
    fun dtype nameable => parse_eq_ok_iff.mpr (parse?_render nameable)
  have read_nameable : ∀ (text : String) (dtype : DataType), parse text = .ok dtype →
      dtype.Nameable := fun text dtype read => nameable_of_parse? (parse_eq_ok_iff.mp read)
  refine ⟨read_back, fun dtype => ⟨?_, ?_⟩, ?_, ?_⟩
  · rintro ⟨text, read⟩
    exact read_nameable text dtype read
  · intro nameable
    exact ⟨dtype.render, read_back dtype nameable⟩
  · intro text dtype read
    rw [read, read_back dtype (read_nameable text dtype read)]
  · intro left right nameable nameable' same
    exact render_inj nameable.2 nameable'.2 same

/-- A boolean vector that is spelled with a width, a sign and leading zeros is read as its own text
is, and that text is another one. -/
theorem text_round_trip_of_spelling :
    (⟨.uint, 1, 7⟩ : DataType).Nameable ∧ parse "uint01x+007" = .ok ⟨.uint, 1, 7⟩ ∧
      (⟨.uint, 1, 7⟩ : DataType).render = "boolx7" ∧ parse "boolx7" = .ok ⟨.uint, 1, 7⟩ ∧
      parse "boolx7" = parse "uint01x+007" := by
  have nameable : (⟨.uint, 1, 7⟩ : DataType).Nameable := by decide
  have read : parse "uint01x+007" = .ok ⟨.uint, 1, 7⟩ := by rfl
  have text : (⟨.uint, 1, 7⟩ : DataType).render = "boolx7" := by decide
  refine ⟨nameable, read, text, ?_, ?_⟩
  · rw [← text]
    exact text_round_trip.1 _ nameable
  · rw [← text]
    exact text_round_trip.2.2.1 _ _ read

end DataType

end ShapeTyping
