import Mathlib.Data.List.Chain
import Mathlib.Data.List.TakeWhile
import ShapeTyping.Proofs.DataType.RoundTrip

/-!
# Spellings of data types

A data type has one text but is read from more of them: numerals may have a sign and leading zeros,
booleans may be spelled as unsigned integers of one bit, and a single lane may be counted. A text
that is read is the text of what it names exactly when it takes none of these liberties.
-/

namespace ShapeTyping

namespace Numeral

theorem digit_lt {char : Char} (digit : char.isDigit = true) : char.toNat - '0'.toNat < 10 := by
  have bounds : '0'.toNat ≤ char.toNat ∧ char.toNat ≤ '9'.toNat := Char.isDigit_iff_toNat.mp digit
  simp only [Char.reduceToNat] at bounds ⊢
  omega

theorem toDigits_of_isDigit {char : Char} (digit : char.isDigit = true) :
    Nat.toDigits 10 (char.toNat - '0'.toNat) = [char] := by
  have bounds : '0'.toNat ≤ char.toNat ∧ char.toNat ≤ '9'.toNat := Char.isDigit_iff_toNat.mp digit
  have same : (char.toNat - '0'.toNat).digitChar = char := by
    apply Char.toNat_inj.mp
    rw [Nat.toNat_digitChar_of_lt_ten (digit_lt digit)]
    simp only [Char.reduceToNat] at bounds ⊢
    omega
  rw [Nat.toDigits_of_lt_base (digit_lt digit), same]

/-- Digits that are read after a positive number stand after its own. -/
theorem toDigits_ofDigitChars {digits : List Char} (all : ∀ char ∈ digits, char.isDigit = true)
    {start : Nat} (positive : 0 < start) :
    Nat.toDigits 10 (Nat.ofDigitChars 10 digits start) = Nat.toDigits 10 start ++ digits := by
  induction digits generalizing start with
  | nil => rw [Nat.ofDigitChars_nil, List.append_nil]
  | cons char digits induction =>
      rw [List.forall_mem_cons] at all
      rw [Nat.ofDigitChars_cons, induction all.2 (by omega),
        ← Nat.toDigits_append_toDigits (by decide) positive (digit_lt all.1),
        toDigits_of_isDigit all.1, List.append_assoc]
      rfl

/-- Digits without a leading zero are the text of the number they denote. -/
theorem repr_ofDigitChars {first : Char} {digits : List Char}
    (all : ∀ char ∈ first :: digits, char.isDigit = true) (unpadded : first ≠ '0') :
    (Nat.ofDigitChars 10 (first :: digits) 0).repr.toList = first :: digits := by
  rw [List.forall_mem_cons] at all
  have positive : 0 < 10 * 0 + (first.toNat - '0'.toNat) := by
    have bounds : '0'.toNat ≤ first.toNat ∧ first.toNat ≤ '9'.toNat :=
      Char.isDigit_iff_toNat.mp all.1
    have other : first.toNat ≠ '0'.toNat := fun same => unpadded (Char.toNat_inj.mp same)
    omega
  rw [Nat.toList_repr, Nat.ofDigitChars_cons, toDigits_ofDigitChars all.2 positive, Nat.mul_zero,
    Nat.zero_add, toDigits_of_isDigit all.1]
  rfl

/-- What is read as a positive number is digits after at most one sign. -/
theorem digits_of_positive? {bound value : Nat} {numeral : List Char}
    (read : positive? bound numeral = some value) :
    unsigned numeral ≠ [] ∧ (∀ char ∈ unsigned numeral, char.isDigit = true) ∧
      Nat.ofDigitChars 10 (unsigned numeral) 0 = value := by
  obtain ⟨denoted, -⟩ := Option.filter_eq_some_iff.mp read
  rw [ofDigits?] at denoted
  split at denoted
  next => contradiction
  next numeric =>
    simp only [Bool.or_eq_true, List.isEmpty_iff, Bool.not_eq_true', not_or, Bool.not_eq_false,
      List.all_eq_true] at numeric
    exact ⟨numeric.1, numeric.2, Option.some.inj denoted⟩

end Numeral

namespace Text

/-- A zero stands only after a digit. -/
def Unpadded (text : List Char) : Prop :=
  text.IsChain fun char next => next = '0' → char.isDigit = true

/-- There is no sign in the text, and no zero that does not stand after a digit. -/
def Plain (text : List Char) : Prop := '+' ∉ text ∧ Unpadded text

instance : DecidablePred Unpadded := fun text => inferInstanceAs (Decidable (text.IsChain _))

instance : DecidablePred Plain := fun _ => inferInstanceAs (Decidable (_ ∧ _))

theorem unpadded_of_forall {text : List Char}
    (each : ∀ char ∈ text, ∀ next ∈ text, next = '0' → char.isDigit = true) : Unpadded text :=
  (List.pairwise_of_forall_mem_list each).isChain

theorem plain_append_iff {front back : List Char} (head : back.head? ≠ some '0') :
    Plain (front ++ back) ↔ Plain front ∧ Plain back := by
  have meets : ∀ char ∈ front.getLast?, ∀ next ∈ back.head?, next = '0' → char.isDigit = true := by
    rintro char - next found rfl
    exact absurd found head
  rw [Plain, Plain, Plain, Unpadded, Unpadded, Unpadded, List.mem_append, List.isChain_append]
  tauto

/-- A numeral after letters is plain exactly when it is the text of its value. -/
theorem plain_append_numeral_iff {word numeral : List Char} {bound value : Nat}
    (letters : ∀ char ∈ word, char.isDigit = false ∧ char ≠ '+') (nonempty : word ≠ [])
    (read : Numeral.positive? bound numeral = some value) :
    Plain (word ++ numeral) ↔ value.repr.toList = numeral := by
  have no_zero : ∀ char ∈ word, char ≠ '0' := by
    rintro char mem rfl
    exact absurd (letters '0' mem).1 (by decide)
  rw [Plain, Unpadded, List.mem_append, not_or, List.isChain_append]
  constructor
  · rintro ⟨⟨-, no_sign⟩, -, -, meets⟩
    have itself : Numeral.unsigned numeral = numeral := by
      rw [Numeral.unsigned]
      rintro digits rfl
      exact no_sign List.mem_cons_self
    obtain ⟨some_digit, digits, denoted⟩ := Numeral.digits_of_positive? read
    rw [itself] at some_digit digits denoted
    obtain ⟨first, rest, rfl⟩ := List.exists_cons_of_ne_nil some_digit
    have unpadded : first ≠ '0' := by
      intro zero
      have last := List.getLast_mem nonempty
      have digit := meets (word.getLast nonempty) (List.getLast?_eq_some_getLast nonempty) first rfl
        zero
      rw [(letters _ last).1] at digit
      contradiction
    rw [← denoted]
    exact Numeral.repr_ofDigitChars digits unpadded
  · rintro rfl
    have positive := (Numeral.positive?_bounds read).1
    refine ⟨⟨fun mem => (letters '+' mem).2 rfl, fun mem => ?_⟩, ?_, ?_, ?_⟩
    · exact absurd (isDigit_of_mem_repr '+' mem) (by decide)
    · exact unpadded_of_forall fun char _ next mem zero => absurd zero (no_zero next mem)
    · exact unpadded_of_forall fun char mem _ _ _ => isDigit_of_mem_repr char mem
    · rintro char - next found rfl
      exact absurd found (head?_repr_ne_zero positive)

end Text

namespace DataType

/-- The part of a text before its first `x`. -/
def front (text : List Char) : List Char := text.takeWhile (· != 'x')

/-- The part of a text from its first `x` on. -/
def back (text : List Char) : List Char := text.dropWhile (· != 'x')

@[simp]
theorem front_append_back (text : List Char) : front text ++ back text = text :=
  List.takeWhile_append_dropWhile

theorem front_ne_x {text : List Char} : ∀ char ∈ front text, (char != 'x') = true :=
  fun _ mem => List.mem_takeWhile_imp (p := (· != 'x')) mem

theorem head?_back {text : List Char} : ∀ char ∈ (back text).head?, char = 'x' := by
  intro char found
  have stop := List.head?_dropWhile_not (· != 'x') text
  rw [show (text.dropWhile (· != 'x')).head? = some char from found] at stop
  simpa using stop

theorem back_opens {text : List Char} : ∀ char ∈ (back text).head?, (char != 'x') = false := by
  intro char found
  rw [head?_back char found]
  rfl

/-- A text without signs and leading zeros that neither gives booleans a width nor counts a single
lane. -/
structure Terse (text : List Char) : Prop where
  plain : Text.Plain text
  boolean : front text ≠ "uint1".toList
  single : back text ≠ "x1".toList

theorem terse_iff {text : List Char} :
    Terse text ↔ Text.Plain text ∧ front text ≠ "uint1".toList ∧ back text ≠ "x1".toList :=
  ⟨fun ⟨plain, boolean, single⟩ => ⟨plain, boolean, single⟩,
    fun ⟨plain, boolean, single⟩ => ⟨plain, boolean, single⟩⟩

instance : DecidablePred Terse := fun _ => decidable_of_iff' _ terse_iff

section Reading

variable {dtype : DataType}

theorem word_letters (code : TypeCode) :
    ∀ char ∈ code.word.toList, char.isDigit = false ∧ char ≠ '+' := by
  have all : code.word.toList.all (fun char => !char.isDigit && char != '+') = true := by
    cases code <;> decide
  simpa using all

/-- One lane is spelled as in its own text when it is plain and no unsigned integer of one bit. -/
theorem base_eq_iff {text : List Char} (read : readBase? text = some dtype) :
    dtype.stem.toList ++ dtype.width = text ↔ Text.Plain text ∧ text ≠ "uint1".toList := by
  rw [readBase?] at read
  split at read
  next spelled =>
    obtain rfl := Option.some.inj read
    rw [spelled]
    decide
  next =>
    split at read
    next spelled =>
      obtain rfl := Option.some.inj read
      rw [spelled]
      decide
    next =>
      obtain ⟨code, numeral, bits, no_handle, rfl, denoted, rfl⟩ := exists_of_readSized? read
      have kept : bits.toUInt8.toNat = bits :=
        Nat.mod_eq_of_lt (Numeral.positive?_bounds denoted).2
      have nonempty : code.word.toList ≠ [] := by cases code <;> decide
      rw [Text.plain_append_numeral_iff (word_letters code) nonempty denoted]
      by_cases boolean : (single code bits.toUInt8).isBool = true
      · -- Booleans have a text without a width, and their width has one plain numeral.
        obtain ⟨rfl, one⟩ := code_of_isBool boolean
        obtain rfl : bits = 1 := by rw [← kept, show bits.toUInt8 = 1 from one]; rfl
        refine iff_of_false (fun same => ?_) fun both => both.2 (by rw [← both.1]; decide)
        rw [width, if_pos (Or.inl boolean), stem, if_pos boolean] at same
        exact absurd (List.cons.inj same).1 (by decide)
      · have sized : ¬((single code bits.toUInt8).isBool = true ∨
            (single code bits.toUInt8).isHandle = true) := by
          rintro (flag | pointer)
          · exact boolean flag
          · exact no_handle (by simpa [isHandle, single] using pointer)
        rw [width, if_neg sized, stem, if_neg boolean]
        change code.word.toList ++ bits.toUInt8.toNat.repr.toList = _ ↔ _
        rw [kept, List.append_cancel_left_eq]
        refine (and_iff_left_of_imp ?_).symm
        rintro rfl same
        cases code with
        | int | float | bfloat => exact absurd (List.cons.inj same).1 (by decide)
        | handle => contradiction
        | uint =>
            have digits : bits.repr.toList = (1 : Nat).repr.toList :=
              (List.append_right_inj "uint".toList).mp same
            obtain rfl : bits = 1 := Nat.repr_inj.mp (String.toList_inj.mp digits)
            exact boolean rfl

theorem lanes_eq_iff {text : List Char} {lanes : UInt16} (mark : ∀ char ∈ text.head?, char = 'x')
    (read : readLanes? text.tail? = some lanes) :
    (dtype.withLanes lanes).vector = text ↔ Text.Plain text ∧ text ≠ "x1".toList := by
  cases text with
  | nil =>
      obtain rfl := Option.some.inj read
      exact iff_of_true rfl (by decide)
  | cons char numeral =>
      obtain rfl : char = 'x' := mark char rfl
      obtain ⟨value, denoted, rfl⟩ := Option.map_eq_some_iff.mp read
      obtain ⟨positive, bounded⟩ := Numeral.positive?_bounds denoted
      have kept : value.toUInt16.toNat = value := Nat.mod_eq_of_lt bounded
      have letters : ∀ char ∈ ['x'], char.isDigit = false ∧ char ≠ '+' :=
        List.forall_mem_singleton.mpr (by decide)
      have plain_iff : Text.Plain ('x' :: numeral) ↔ value.repr.toList = numeral :=
        Text.plain_append_numeral_iff letters (List.cons_ne_nil _ _) denoted
      have vector_eq : (dtype.withLanes value.toUInt16).vector =
          if 1 < value then 'x' :: value.repr.toList else [] := by
        simp only [vector, withLanes, UInt16.lt_iff_toNat_lt, kept]
        rfl
      rw [plain_iff, vector_eq]
      split
      next several =>
        rw [List.cons_inj_right]
        refine (and_iff_left_of_imp ?_).symm
        rintro rfl same
        have digits : value.repr.toList = (1 : Nat).repr.toList := (List.cons.inj same).2
        obtain rfl : value = 1 := Nat.repr_inj.mp (String.toList_inj.mp digits)
        exact absurd several (by decide)
      next several =>
        obtain rfl : value = 1 := by omega
        refine iff_of_false (List.cons_ne_nil _ _).symm fun both => both.2 ?_
        rw [← both.1]
        decide

end Reading

/-- A text is read part by part. -/
theorem parse?_eq_some_iff {text : String} {dtype : DataType} :
    parse? text = some dtype ↔ ∃ scalar lanes, readBase? (front text.toList) = some scalar ∧
      readLanes? (back text.toList).tail? = some lanes ∧ dtype = scalar.withLanes lanes := by
  rw [parse?, List.span_eq_takeWhile_dropWhile]
  simp only [Option.bind_eq_bind, Option.bind_eq_some_iff, Option.some.injEq]
  constructor
  · rintro ⟨lanes, lanes_read, scalar, scalar_read, rfl⟩
    exact ⟨scalar, lanes, scalar_read, lanes_read, rfl⟩
  · rintro ⟨scalar, lanes, scalar_read, lanes_read, rfl⟩
    exact ⟨lanes, lanes_read, scalar, scalar_read, rfl⟩

/-- A text is that of a data type when it agrees with it before and after the first `x`. -/
theorem render_eq_iff {dtype : DataType} {text : String} :
    dtype.render = text ↔ dtype.stem.toList ++ dtype.width = front text.toList ∧
      dtype.vector = back text.toList := by
  have vector_head : ∀ char ∈ dtype.vector.head?, (char != 'x') = false := by
    rw [vector]
    split <;> simp
  rw [← String.toList_inj, toList_render]
  constructor
  · intro same
    rw [← front_append_back text.toList] at same
    exact Text.append_inj_of_forall dtype.base_ne_x front_ne_x vector_head back_opens same
  · rintro ⟨same_base, same_vector⟩
    rw [same_base, same_vector, front_append_back]

/-- A text that is read is the text of what it names exactly when it is terse. -/
theorem render_eq_iff_terse {text : String} {dtype : DataType} (read : parse text = .ok dtype) :
    dtype.render = text ↔ Terse text.toList := by
  obtain ⟨scalar, lanes, scalar_read, lanes_read, rfl⟩ :=
    parse?_eq_some_iff.mp (parse_eq_ok_iff.mp read)
  have same_base : (scalar.withLanes lanes).stem.toList ++ (scalar.withLanes lanes).width =
      scalar.stem.toList ++ scalar.width := rfl
  have no_zero : (back text.toList).head? ≠ some '0' := by
    intro found
    exact absurd (head?_back '0' found) (by decide)
  have plain_iff : Text.Plain text.toList ↔
      Text.Plain (front text.toList) ∧ Text.Plain (back text.toList) := by
    rw [← Text.plain_append_iff no_zero, front_append_back]
  rw [render_eq_iff, same_base, base_eq_iff scalar_read, lanes_eq_iff head?_back lanes_read,
    terse_iff, plain_iff]
  tauto

/-- A vector of unsigned integers is read from its own text, and one of booleans from a text with a
width, a sign and leading zeros, which is not its own. -/
theorem uint10_terse_uint01_padded :
    parse "uint10x200" = .ok ⟨.uint, 10, 200⟩ ∧ parse "uint01x+007" = .ok ⟨.uint, 1, 7⟩ ∧
      (⟨.uint, 10, 200⟩ : DataType).render = "uint10x200" ∧
      (⟨.uint, 1, 7⟩ : DataType).render ≠ "uint01x+007" := by
  have read : parse "uint10x200" = .ok ⟨.uint, 10, 200⟩ := by rfl
  have read' : parse "uint01x+007" = .ok ⟨.uint, 1, 7⟩ := by rfl
  refine ⟨read, read', (render_eq_iff_terse read).mpr (by decide), fun same => ?_⟩
  exact absurd ((render_eq_iff_terse read').mp same) (by decide)

/-- Not every text that is read is the text of what it names: a leading zero is dropped. -/
theorem not_forall_render_eq_of_parse :
    ¬∀ (text : String) (dtype : DataType), parse text = .ok dtype → dtype.render = text := by
  intro exact_text
  exact absurd (exact_text "int032" int32 (by rfl)) (by decide)

end DataType

end ShapeTyping
