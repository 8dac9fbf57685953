import ShapeTyping.Json.Value

/-!
# Number literals

A literal without fraction and exponent is an integer when 64 signed bits hold it. Every other
literal is a binary64 number: its leading digits, as many as 64 bits hold, scaled by one power of
ten.
-/

namespace ShapeTyping

namespace Json

/-- The exponent of a literal. -/
structure Exponent where
  /-- A minus sign stands before the digits. -/
  negative : Bool
  /-- The digits in reading order. -/
  digits : List Char
deriving DecidableEq, Repr

/-- A number literal, as its runs of digits. -/
structure Literal where
  /-- A minus sign stands in front. -/
  negative : Bool
  /-- The digits before the point. -/
  whole : List Char
  /-- The digits after the point. -/
  fraction : Option (List Char) := none
  /-- What follows the exponent mark. -/
  exponent : Option Exponent := none
deriving DecidableEq, Repr

namespace Literal

/-- Appends a digit to a significand, unless 64 bits cannot hold the result. -/
def extend? (significand : Nat) (digit : Char) : Option Nat :=
  let longer := Nat.ofDigitChars 10 [digit] significand
  if longer < Nat.pow 2 64 then some longer else none

/-- The significand of the digits before the point, and the number of digits left out. -/
def wholePart : (significand : Nat) → List Char → Nat × Nat
  | significand, [] => (significand, 0)
  | significand, digit :: digits =>
      match extend? significand digit with
      | some longer => wholePart longer digits
      | none => (significand, digits.length + 1)

/-- Extends a significand by digits after the point, and counts the digits taken. -/
def fractionPart : (significand : Nat) → List Char → Nat × Nat
  | significand, [] => (significand, 0)
  | significand, digit :: digits =>
      match extend? significand digit with
      | some longer =>
          let (result, taken) := fractionPart longer digits
          (result, taken + 1)
      | none => (significand, 0)

/-- The significand of a literal and the power of ten it is scaled by. -/
def parts (literal : Literal) : Nat × Int :=
  let (whole, dropped) := wholePart 0 literal.whole
  let (significand, taken) := fractionPart whole (literal.fraction.getD [])
  let exponent := match literal.exponent with
    | none => 0
    | some ⟨negative, digits⟩ =>
        let size : Int := Nat.ofDigitChars 10 digits 0
        if negative then -size else size
  (significand, Int.ofNat dropped - Int.ofNat taken + exponent)

/-- A power of ten up to the 308th. -/
def powerOfTen (exponent : Nat) : Float := Float.ofScientific 1 false exponent

/-- Divides by a power of ten, in several steps when one would overflow. -/
def shrink (value : Float) (exponent : Nat) : Float :=
  if exponent ≤ 308 then value / powerOfTen exponent
  else if value == 0 then value
  else shrink (value / powerOfTen 308) (exponent - 308)
termination_by exponent

/-- Multiplies by a power of ten; `none` when the result is too large. -/
def grow? (value : Float) (exponent : Nat) : Option Float :=
  if exponent ≤ 308 then
    let product := value * powerOfTen exponent
    if product.isInf then none else some product
  else if value == 0 then some value
  else none

/-- The size of a literal as a binary64 number; `none` when it is too large. -/
def size? (literal : Literal) : Option Float :=
  let (significand, exponent) := literal.parts
  let value := Float.ofNat significand
  if 0 ≤ exponent then grow? value exponent.toNat else some (shrink value (-exponent).toNat)

/-- The binary64 number of a literal; `none` when it is too large. -/
def float? (literal : Literal) : Option Number :=
  literal.size?.map fun size => .float (.ofFloat (if literal.negative then -size else size))

/-- The integer of a literal in 64 signed bits; a negative zero is not one. -/
def int? (literal : Literal) : Option Int64 :=
  let size := Nat.ofDigitChars 10 literal.whole 0
  if literal.fraction.isSome || literal.exponent.isSome then none
  else if literal.negative then
    if 0 < size && size ≤ Nat.pow 2 63 then some (Int64.ofInt (-size)) else none
  else if size < Nat.pow 2 63 then some (Int64.ofNat size)
  else none

/-- The number of a literal; `none` when it is too large. -/
def number? (literal : Literal) : Option Number :=
  match literal.int? with
  | some value => some (.int value)
  | none => literal.float?

end Literal

end Json

end ShapeTyping
