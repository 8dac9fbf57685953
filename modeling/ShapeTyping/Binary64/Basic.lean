/-!
# Binary64 numbers

A double-precision number is kept as its 64 bits, so that numbers are told apart exactly when their
bits differ. A finite number is an integer significand times a power of two.
-/

namespace ShapeTyping

/-- A double-precision number, identified by its bits. -/
structure Binary64 where
  /-- Sign, exponent and fraction, from the highest bit down. -/
  bits : UInt64
deriving DecidableEq, Hashable, Repr

namespace Binary64

/-- The bits of a machine number. -/
def ofFloat (value : Float) : Binary64 := ⟨value.toBits⟩

/-- The sign bit is set. -/
def isNegative (number : Binary64) : Bool := Nat.pow 2 63 ≤ number.bits.toNat

/-- The biased exponent. -/
def exponentField (number : Binary64) : Nat := number.bits.toNat / Nat.pow 2 52 % Nat.pow 2 11

/-- The fraction below the leading bit. -/
def fractionField (number : Binary64) : Nat := number.bits.toNat % Nat.pow 2 52

/-- The magnitude of a number. -/
inductive Magnitude where
  | nan
  | infinity
  | zero
  /-- The value `significand * 2 ^ exponent`; `narrowBelow` halves the spacing below it. -/
  | finite (significand : Nat) (exponent : Int) (narrowBelow : Bool)
deriving DecidableEq, Repr

/-- The magnitude that the exponent and the fraction encode. -/
def magnitude (number : Binary64) : Magnitude :=
  let fraction := number.fractionField
  match number.exponentField with
  | 0 => if fraction = 0 then .zero else .finite fraction (-1074) false
  | 2047 => if fraction = 0 then .infinity else .nan
  | field =>
      .finite (Nat.pow 2 52 + fraction) (Int.ofNat field - 1075) (fraction == 0 && 1 < field)

end Binary64

end ShapeTyping
