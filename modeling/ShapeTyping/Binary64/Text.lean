import ShapeTyping.Binary64.Shortest

/-!
# Decimal text of binary64 numbers

The shortest digits are written positionally, with at least one decimal, from one ten-thousandth up
to ten to the sixteenth, and in scientific form without padding outside that range.
-/

namespace ShapeTyping

namespace Binary64

/-- Digits with the point after the first `position` of them, padded by zeros where needed. -/
def positional (digits : List Char) (position : Int) : List Char :=
  if position ≤ 0 then
    ['0', '.'] ++ List.replicate (-position).toNat '0' ++ digits
  else if digits.length ≤ position.toNat then
    digits ++ List.replicate (position.toNat - digits.length) '0' ++ ['.', '0']
  else
    digits.take position.toNat ++ ['.'] ++ digits.drop position.toNat

/-- Digits with the point after the first one, and the power of ten. -/
def scientific (digits : List Char) (exponent : Int) : List Char :=
  let mantissa := match digits with
    | first :: second :: rest => first :: '.' :: second :: rest
    | short => short
  mantissa ++ ['e'] ++ exponent.repr.toList

/-- The text of a positive decimal. -/
def Decimal.render (decimal : Decimal) : List Char :=
  let digits := Nat.toDigits 10 decimal.digits
  let position := decimal.exponent + digits.length
  if -4 < position && position ≤ 16 then positional digits position
  else scientific digits (position - 1)

/-- The text of a magnitude. -/
def Magnitude.render : Magnitude → List Char
  | nan => ['N', 'a', 'N']
  | infinity => ['i', 'n', 'f']
  | zero => ['0', '.', '0']
  | finite significand exponent narrowBelow =>
      (Interval.of significand exponent narrowBelow).shortest.render

/-- The text of a number; a sign stands before everything but an undefined value. -/
def render (number : Binary64) : String :=
  let magnitude := number.magnitude
  let sign := if number.isNegative && magnitude ≠ .nan then ['-'] else []
  String.ofList (sign ++ magnitude.render)

end Binary64

end ShapeTyping
