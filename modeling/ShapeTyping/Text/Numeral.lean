/-!
# Decimal numerals

Unsigned numerals as they occur in data type names: decimal digits with leading zeros allowed, after
at most one plus sign.
-/

namespace ShapeTyping

namespace Numeral

/-- The value of a nonempty list of decimal digits. -/
def ofDigits? (digits : List Char) : Option Nat :=
  if digits.isEmpty || !digits.all Char.isDigit then none
  else some (Nat.ofDigitChars 10 digits 0)

/-- A numeral without its optional plus sign. -/
def unsigned : List Char → List Char
  | '+' :: digits => digits
  | digits => digits

/-- The value of a numeral, when it is positive and below `bound`. -/
def positive? (bound : Nat) (numeral : List Char) : Option Nat :=
  (ofDigits? (unsigned numeral)).filter fun value => 0 < value && value < bound

@[simp]
theorem ofDigits?_nil : ofDigits? [] = none := rfl

@[simp]
theorem unsigned_plus (digits : List Char) : unsigned ('+' :: digits) = digits := rfl

theorem positive?_bounds {bound value : Nat} {numeral : List Char}
    (read : positive? bound numeral = some value) : 0 < value ∧ value < bound := by
  simpa using (Option.filter_eq_some_iff.mp read).2

end Numeral

end ShapeTyping
