import ShapeTyping.Binary64.Basic

/-!
# Shortest decimals

Among the decimals that round to a given finite number, the one with the fewest digits is chosen,
and the nearest of those; a decimal halfway between two candidates goes to the larger.
-/

namespace ShapeTyping

namespace Binary64

/-- A decimal `digits * 10 ^ exponent`. -/
structure Decimal where
  /-- The digits, read as an integer. -/
  digits : Nat
  /-- The power of ten of the last digit. -/
  exponent : Int
deriving DecidableEq, Repr

/-- The number of decimal digits of a natural number. -/
def digitCount (value : Nat) : Nat := (Nat.toDigits 10 value).length

/-- Drops trailing zeros, at most `fuel` of them. -/
def Decimal.trim : Nat → Decimal → Decimal
  | 0, decimal => decimal
  | fuel + 1, decimal =>
      if decimal.digits % 10 = 0 then trim fuel ⟨decimal.digits / 10, decimal.exponent + 1⟩
      else decimal

/-- The exact interval of reals that round to a finite number, in units of a power of two. -/
structure Interval where
  /-- Lower end. -/
  lower : Nat
  /-- The number itself. -/
  middle : Nat
  /-- Upper end. -/
  upper : Nat
  /-- The ends themselves round to the number. -/
  closed : Bool
  /-- The power of two of one unit. -/
  unit : Int
deriving Repr

/-- The rounding interval, in quarters of the last significand bit. -/
def Interval.of (significand : Nat) (exponent : Int) (narrowBelow : Bool) : Interval where
  lower := 4 * significand - (if narrowBelow then 1 else 2)
  middle := 4 * significand
  upper := 4 * significand + 2
  closed := significand % 2 = 0
  unit := exponent - 2

namespace Interval

/-- The position of the decimal point before the first digit of `numerator / denominator`. -/
def pointPosition (numerator denominator : Nat) : Int :=
  if denominator ≤ numerator then digitCount (numerator / denominator)
  else 1 - digitCount ((denominator + numerator - 1) / numerator - 1)

/-- The interval contains the grid point `candidate`, both sides scaled to integers. -/
def admits (interval : Interval) (scale denominator candidate : Nat) : Bool :=
  let point := candidate * denominator
  let low := interval.lower * scale
  let high := interval.upper * scale
  if interval.closed then low ≤ point && point ≤ high else low < point && point < high

/-- The better of the two grid points around the number when decimals have the given exponent. -/
def nearest? (interval : Interval) (exponent : Int) : Option Decimal :=
  let scale := Nat.pow 2 interval.unit.toNat * Nat.pow 10 (-exponent).toNat
  let denominator := Nat.pow 2 (-interval.unit).toNat * Nat.pow 10 exponent.toNat
  let below := interval.middle * scale / denominator
  let remainder := interval.middle * scale % denominator
  match interval.admits scale denominator below,
      interval.admits scale denominator (below + 1) with
  | true, true =>
      some ⟨if 2 * remainder < denominator then below else below + 1, exponent⟩
  | true, false => some ⟨below, exponent⟩
  | false, true => some ⟨below + 1, exponent⟩
  | false, false => none

/-- The shortest decimal inside the interval; seventeen digits always suffice. -/
def shortest (interval : Interval) : Decimal :=
  let position := pointPosition (interval.middle * Nat.pow 2 interval.unit.toNat)
    (Nat.pow 2 (-interval.unit).toNat)
  let candidate := (List.range 17).findSome? fun (count : Nat) =>
    interval.nearest? (position - (count + 1))
  (candidate.getD ⟨interval.middle, 0⟩).trim 20

end Interval

end Binary64

end ShapeTyping
