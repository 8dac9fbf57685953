import ShapeTyping.Proofs.DataType.Spelling

/-!
# The grammar of data types

The texts that are read as data types, given by the ways to write them: a word, or a code and a
width, and possibly an `x` and a number of lanes. Widths and numbers of lanes may have a plus sign
and leading zeros. Each way to write a data type has a text of its own, and the texts that are read
are exactly these.
-/

namespace ShapeTyping

namespace Numeral

/-- The number that decimal digits stand for, the first one counting most. -/
def denoted (digits : List (Fin 10)) : Nat :=
  digits.foldl (fun value digit => 10 * value + digit.val) 0

/-- The characters of decimal digits. -/
def digitChars (digits : List (Fin 10)) : List Char :=
  digits.map fun digit => digit.val.digitChar

/-- A way to write a number from one to `last`. -/
structure Spelling (last : Nat) where
  /-- There is a plus sign. -/
  signed : Bool
  /-- The digits after it, zeros in front of the number included. -/
  digits : List (Fin 10)
  nonempty : digits ≠ []
  inRange : 1 ≤ denoted digits ∧ denoted digits ≤ last

/-- The sign and the digits. -/
def Spelling.chars {last : Nat} (spelling : Spelling last) : List Char :=
  (if spelling.signed then ['+'] else []) ++ digitChars spelling.digits

/-- The number that is written. -/
def Spelling.value {last : Nat} (spelling : Spelling last) : Nat := denoted spelling.digits

theorem isDigit_of_mem_digitChars {digits : List (Fin 10)} :
    ∀ char ∈ digitChars digits, char.isDigit = true := by
  intro char mem
  obtain ⟨digit, -, rfl⟩ := List.mem_map.mp mem
  rw [Nat.isDigit_digitChar]
  exact decide_eq_true digit.isLt

theorem digitChars_injective : Function.Injective digitChars := by
  refine List.map_injective_iff.mpr fun digit digit' same => Fin.ext ?_
  have same_code : digit.val.digitChar.toNat = digit'.val.digitChar.toNat :=
    congrArg Char.toNat same
  rw [Nat.toNat_digitChar_of_lt_ten digit.isLt, Nat.toNat_digitChar_of_lt_ten digit'.isLt]
    at same_code
  exact Nat.add_left_cancel same_code

theorem exists_digits {chars : List Char} (all : ∀ char ∈ chars, char.isDigit = true) :
    ∃ digits, digitChars digits = chars := by
  induction chars with
  | nil => exact ⟨[], rfl⟩
  | cons char chars induction =>
      rw [List.forall_mem_cons] at all
      obtain ⟨digits, rfl⟩ := induction all.2
      have same := toDigits_of_isDigit all.1
      rw [Nat.toDigits_of_lt_base (digit_lt all.1)] at same
      refine ⟨⟨_, digit_lt all.1⟩ :: digits, ?_⟩
      rw [digitChars, List.map_cons, (List.cons.inj same).1]
      rfl

theorem ofDigitChars_digitChars (digits : List (Fin 10)) :
    Nat.ofDigitChars 10 (digitChars digits) 0 = denoted digits := by
  rw [denoted]
  generalize 0 = start
  induction digits generalizing start with
  | nil => rfl
  | cons digit digits induction =>
      have shown : digit.val.digitChar.toNat - '0'.toNat = digit.val := by
        rw [Nat.toNat_digitChar_of_lt_ten digit.isLt]
        exact Nat.add_sub_cancel_left 48 digit.val
      rw [digitChars, List.map_cons, Nat.ofDigitChars_cons, shown, List.foldl_cons]
      exact induction _

namespace Spelling

variable {last : Nat}

@[simp]
theorem unsigned_chars (spelling : Spelling last) :
    unsigned spelling.chars = digitChars spelling.digits := by
  rw [chars]
  split
  · rfl
  · exact unsigned_of_isDigit isDigit_of_mem_digitChars

theorem chars_injective : Function.Injective (chars : Spelling last → List Char) := by
  intro left right same
  have same_digits : left.digits = right.digits := by
    have unsigned_eq := congrArg unsigned same
    rw [unsigned_chars, unsigned_chars] at unsigned_eq
    exact digitChars_injective unsigned_eq
  obtain ⟨signed, digits, _, _⟩ := left
  obtain ⟨signed', digits', _, _⟩ := right
  obtain rfl : digits = digits' := same_digits
  have same_sign : (if signed then ['+'] else []) = if signed' then ['+'] else [] :=
    List.append_cancel_right same
  cases signed with
  | false =>
      cases signed' with
      | false => rfl
      | true => contradiction
  | true =>
      cases signed' with
      | false => contradiction
      | true => rfl

/-- No character of a number is a letter. -/
theorem chars_numeric (spelling : Spelling last) :
    ∀ char ∈ spelling.chars, char.isDigit = true ∨ char = '+' := by
  rw [chars, List.forall_mem_append]
  refine ⟨?_, fun char mem => Or.inl (isDigit_of_mem_digitChars char mem)⟩
  split
  · exact List.forall_mem_singleton.mpr (Or.inr rfl)
  · exact List.forall_mem_nil _

theorem positive?_chars (spelling : Spelling last) :
    positive? (last + 1) spelling.chars = some spelling.value := by
  have nonempty : (digitChars spelling.digits).isEmpty = false := by
    rw [digitChars, List.isEmpty_map, List.isEmpty_eq_false_iff]
    exact spelling.nonempty
  have numeric : (digitChars spelling.digits).all Char.isDigit = true :=
    List.all_eq_true.mpr isDigit_of_mem_digitChars
  have in_range : (0 < spelling.value && spelling.value < last + 1) = true := by
    rw [Bool.and_eq_true, decide_eq_true_iff, decide_eq_true_iff, Nat.lt_succ_iff]
    exact spelling.inRange
  rw [positive?, unsigned_chars, ofDigits?, nonempty, numeric, ofDigitChars_digitChars]
  exact if_pos in_range

/-- Whatever is read as a number is a way to write it. -/
theorem exists_of_positive? (last : Nat) {numeral : List Char} {value : Nat}
    (read : positive? (last + 1) numeral = some value) :
    ∃ spelling : Spelling last, spelling.chars = numeral := by
  obtain ⟨nonempty, numeric, denotes⟩ := digits_of_positive? read
  obtain ⟨digits, written⟩ := exists_digits numeric
  have in_range : 1 ≤ denoted digits ∧ denoted digits ≤ last := by
    rw [← ofDigitChars_digitChars, written, denotes]
    exact ⟨(positive?_bounds read).1, Nat.lt_succ_iff.mp (positive?_bounds read).2⟩
  have some_digit : digits ≠ [] := by
    rintro rfl
    exact nonempty written.symm
  unfold unsigned at written
  split at written
  · exact ⟨⟨true, digits, some_digit, in_range⟩, congrArg ('+' :: ·) written⟩
  · exact ⟨⟨false, digits, some_digit, in_range⟩, written⟩

end Spelling

end Numeral

namespace DataType

/-- A way to write one lane. -/
inductive LaneSpelling where
  | bool
  | handle
  | sized (code : TypeCode) (no_handle : code ≠ .handle) (width : Numeral.Spelling 255)

namespace LaneSpelling

/-- The characters of one lane. -/
def chars : LaneSpelling → List Char
  | bool => "bool".toList
  | handle => "handle".toList
  | sized code _ width => code.word.toList ++ width.chars

/-- The code that is written. -/
def code : LaneSpelling → TypeCode
  | bool => .uint
  | handle => .handle
  | sized code _ _ => code

/-- The width that is written. -/
def bits : LaneSpelling → Nat
  | bool => 1
  | handle => 64
  | sized _ _ width => width.value

end LaneSpelling

/-- A way to write a data type, with or without a number of lanes. -/
structure Spelling where
  /-- What stands before the number of lanes. -/
  lane : LaneSpelling
  /-- The number of lanes. -/
  lanes : Option (Numeral.Spelling 65535)

namespace Spelling

/-- The mark and the number of lanes. -/
def laneChars (spelling : Spelling) : List Char :=
  spelling.lanes.elim [] fun numeral => 'x' :: numeral.chars

/-- The text that is written. -/
def text (spelling : Spelling) : String :=
  String.ofList (spelling.lane.chars ++ spelling.laneChars)

/-- The number of lanes, which is one when none is given. -/
def laneCount (spelling : Spelling) : Nat := spelling.lanes.elim 1 Numeral.Spelling.value

/-- The data type has the code, the width and the number of lanes that are written. -/
structure Names (spelling : Spelling) (dtype : DataType) : Prop where
  code : dtype.code = spelling.lane.code
  bits : dtype.bits.toNat = spelling.lane.bits
  lanes : dtype.lanes.toNat = spelling.laneCount

end Spelling

theorem word_append_ne (code : TypeCode) (numeral : List Char) :
    code.word.toList ++ numeral ≠ "bool".toList := by
  cases code <;> simp [TypeCode.word]

theorem word_append_ne_handle {code : TypeCode} (no_handle : code ≠ .handle)
    (numeral : List Char) : code.word.toList ++ numeral ≠ "handle".toList := by
  cases code with
  | handle => contradiction
  | int | uint | float | bfloat => simp [TypeCode.word]

/-- The word of a code ends where the first digit or sign stands. -/
theorem word_append_inj {code code' : TypeCode} {width width' : Numeral.Spelling 255}
    (same : code.word.toList ++ width.chars = code'.word.toList ++ width'.chars) :
    code = code' ∧ width = width' := by
  have letters : ∀ code : TypeCode, ∀ char ∈ code.word.toList,
      (!(char.isDigit || char == '+')) = true := by
    intro code char mem
    simp [word_letters code char mem]
  have numeric : ∀ width : Numeral.Spelling 255, ∀ char ∈ width.chars.head?,
      (!(char.isDigit || char == '+')) = false := by
    intro width char found
    rcases width.chars_numeric char (List.mem_of_mem_head? found) with digit | rfl
    · rw [digit]
      rfl
    · rfl
  obtain ⟨same_word, same_width⟩ := Text.append_inj_of_forall (letters code) (letters code')
    (numeric width) (numeric width') same
  exact ⟨TypeCode.word_injective (String.toList_inj.mp same_word),
    Numeral.Spelling.chars_injective same_width⟩

namespace LaneSpelling

theorem chars_ne_x (lane : LaneSpelling) : ∀ char ∈ lane.chars, (char != 'x') = true := by
  cases lane with
  | bool => exact List.all_eq_true.mp rfl
  | handle => exact List.all_eq_true.mp rfl
  | sized code no_handle width =>
      refine List.forall_mem_append.mpr ⟨?_, fun char mem => ?_⟩
      · cases code <;> exact List.all_eq_true.mp rfl
      · rw [bne_iff_ne]
        rcases width.chars_numeric char mem with digit | rfl
        · exact Text.ne_of_isDigit digit rfl
        · exact Char.ne_of_val_ne (by decide)

theorem chars_injective : Function.Injective chars := by
  intro left right same
  cases left with
  | bool =>
      cases right with
      | bool => rfl
      | handle => contradiction
      | sized code _ width => exact absurd same.symm (word_append_ne code width.chars)
  | handle =>
      cases right with
      | bool => contradiction
      | handle => rfl
      | sized code no_handle width =>
          exact absurd same.symm (word_append_ne_handle no_handle width.chars)
  | sized code no_handle width =>
      cases right with
      | bool => exact absurd same (word_append_ne code width.chars)
      | handle => exact absurd same (word_append_ne_handle no_handle width.chars)
      | sized code' _ width' =>
          obtain ⟨rfl, rfl⟩ := word_append_inj same
          rfl

theorem readBase?_chars (lane : LaneSpelling) :
    readBase? lane.chars = some (single lane.code lane.bits.toUInt8) := by
  cases lane with
  | bool => rfl
  | handle => rfl
  | sized code no_handle width =>
      have denotes : Numeral.positive? 256 width.chars = some width.value := width.positive?_chars
      change readBase? (code.word.toList ++ width.chars) = _
      rw [readBase?, if_neg (word_append_ne code width.chars),
        if_neg (word_append_ne_handle no_handle width.chars), readSized?, findSome?_word no_handle]
      simp only [Option.bind_eq_bind, Option.bind_some, denotes]
      rfl

theorem exists_of_readBase? {text : List Char} {dtype : DataType}
    (read : readBase? text = some dtype) : ∃ lane : LaneSpelling, lane.chars = text := by
  rw [readBase?] at read
  split at read
  next spelled => exact ⟨.bool, spelled.symm⟩
  next =>
    split at read
    next spelled => exact ⟨.handle, spelled.symm⟩
    next =>
      obtain ⟨code, numeral, bits, no_handle, rfl, denotes, -⟩ := exists_of_readSized? read
      obtain ⟨width, rfl⟩ := Numeral.Spelling.exists_of_positive? 255 denotes
      exact ⟨.sized code no_handle width, rfl⟩

theorem bits_lt (lane : LaneSpelling) : lane.bits < 256 := by
  cases lane with
  | bool | handle => decide
  | sized code no_handle width => exact Nat.lt_succ_iff.mpr width.inRange.2

end LaneSpelling

namespace Spelling

variable (spelling : Spelling)

/-- The text is cut at the first `x`. -/
theorem text_cut :
    front spelling.text.toList = spelling.lane.chars ∧
      back spelling.text.toList = spelling.laneChars := by
  have mark : ∀ char ∈ spelling.laneChars.head?, (char != 'x') = false := by
    rw [laneChars]
    cases spelling.lanes <;> simp
  refine Text.append_inj_of_forall front_ne_x spelling.lane.chars_ne_x back_opens mark ?_
  rw [front_append_back, text, String.toList_ofList]

theorem readLanes?_laneChars :
    readLanes? spelling.laneChars.tail? = some spelling.laneCount.toUInt16 := by
  rw [laneChars, laneCount]
  cases spelling.lanes with
  | none => rfl
  | some numeral => exact congrArg (Option.map Nat.toUInt16) numeral.positive?_chars

theorem text_injective : Function.Injective text := by
  intro left right same
  have same_lane : left.lane = right.lane := by
    apply LaneSpelling.chars_injective
    rw [← left.text_cut.1, same, right.text_cut.1]
  have same_lanes : left.laneChars = right.laneChars := by
    rw [← left.text_cut.2, same, right.text_cut.2]
  obtain ⟨lane, lanes⟩ := left
  obtain ⟨lane', lanes'⟩ := right
  obtain rfl : lane = lane' := same_lane
  cases lanes with
  | none =>
      cases lanes' with
      | none => rfl
      | some numeral' => contradiction
  | some numeral =>
      cases lanes' with
      | none => contradiction
      | some numeral' => rw [Numeral.Spelling.chars_injective (List.cons.inj same_lanes).2]

/-- What is written is read. -/
theorem parse?_text :
    parse? spelling.text = some ((single spelling.lane.code spelling.lane.bits.toUInt8).withLanes
      spelling.laneCount.toUInt16) := by
  refine parse?_eq_some_iff.mpr ⟨_, _, ?_, ?_, rfl⟩
  · rw [spelling.text_cut.1, spelling.lane.readBase?_chars]
  · rw [spelling.text_cut.2, readLanes?_laneChars]

/-- What is read can be written. -/
theorem exists_of_parse? {text : String} {dtype : DataType} (read : parse? text = some dtype) :
    ∃ spelling : Spelling, spelling.text = text := by
  obtain ⟨scalar, lanes, scalar_read, lanes_read, -⟩ := parse?_eq_some_iff.mp read
  obtain ⟨lane, lane_eq⟩ := LaneSpelling.exists_of_readBase? scalar_read
  have written : ∃ lanes : Option (Numeral.Spelling 65535),
      (Spelling.mk lane lanes).laneChars = back text.toList := by
    cases shape : back text.toList with
    | nil => exact ⟨none, rfl⟩
    | cons char numeral =>
        rw [shape] at lanes_read
        obtain ⟨value, denotes, -⟩ := Option.map_eq_some_iff.mp lanes_read
        obtain ⟨numeral, rfl⟩ := Numeral.Spelling.exists_of_positive? 65535 denotes
        obtain rfl : char = 'x' := head?_back char (by rw [shape]; rfl)
        exact ⟨some numeral, rfl⟩
  obtain ⟨lanes, lanes_eq⟩ := written
  refine ⟨⟨lane, lanes⟩, String.toList_inj.mp ?_⟩
  rw [Spelling.text, String.toList_ofList, lane_eq, lanes_eq, front_append_back]

theorem laneCount_lt : spelling.laneCount < 65536 := by
  rw [laneCount]
  cases spelling.lanes with
  | none => decide
  | some numeral => exact Nat.lt_succ_iff.mpr numeral.inRange.2

/-- One data type has what is written, as no width and no number of lanes is too large. -/
theorem names_iff {dtype : DataType} :
    spelling.Names dtype ↔ parse? spelling.text = some dtype := by
  have bits_eq : spelling.lane.bits.toUInt8.toNat = spelling.lane.bits :=
    Nat.mod_eq_of_lt spelling.lane.bits_lt
  have lanes_eq : spelling.laneCount.toUInt16.toNat = spelling.laneCount :=
    Nat.mod_eq_of_lt spelling.laneCount_lt
  rw [parse?_text, Option.some.injEq]
  constructor
  · rintro ⟨same_code, same_bits, same_lanes⟩
    rw [← bits_eq] at same_bits
    rw [← lanes_eq] at same_lanes
    obtain ⟨code, bits, lanes⟩ := dtype
    obtain rfl : code = spelling.lane.code := same_code
    obtain rfl : bits = spelling.lane.bits.toUInt8 := UInt8.toNat_inj.mp same_bits
    obtain rfl : lanes = spelling.laneCount.toUInt16 := UInt16.toNat_inj.mp same_lanes
    rfl
  · rintro rfl
    exact ⟨rfl, bits_eq, lanes_eq⟩

end Spelling

/-- A text is read as a data type exactly when there is a way to write the data type that has this
text, and then there is no other one. Every other text is reported as it is. -/
theorem parse_iff_spelled (text : String) :
    (∀ dtype, parse text = .ok dtype ↔
      ∃ spelling : Spelling, spelling.Names dtype ∧
        ∀ other : Spelling, other.text = text ↔ other = spelling) ∧
      ∀ error, parse text = .error error ↔
        error = ⟨text⟩ ∧ ∀ spelling : Spelling, spelling.text ≠ text := by
  refine ⟨fun dtype => ?_, fun error => ?_⟩
  · rw [parse_eq_ok_iff]
    constructor
    · intro read
      obtain ⟨spelling, rfl⟩ := Spelling.exists_of_parse? read
      exact ⟨spelling, spelling.names_iff.mpr read, fun other => Spelling.text_injective.eq_iff⟩
    · rintro ⟨spelling, names, unique⟩
      rw [← (unique spelling).mpr rfl]
      exact spelling.names_iff.mp names
  · rw [parse]
    cases read : parse? text with
    | none =>
        have unwritten : ∀ spelling : Spelling, spelling.text ≠ text := by
          rintro spelling rfl
          rw [spelling.parse?_text] at read
          contradiction
        rw [Except.error.injEq, eq_comm, and_iff_left unwritten]
    | some dtype =>
        obtain ⟨spelling, written⟩ := Spelling.exists_of_parse? read
        exact iff_of_false (by rintro ⟨⟩) fun refused => refused.2 spelling written

end DataType

end ShapeTyping
