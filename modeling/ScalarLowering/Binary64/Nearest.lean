import ScalarLowering.Binary64.Basic
import ScalarLowering.Text.Numeral

/-!
Rounding to the nearest double, ties to the even significand, in exact integer arithmetic. A
quotient is measured in units and rounded to the multiple of a power of two that the significand
can hold; the bits of the result are then the rounded significand plus the power in the exponent
field, also when rounding carries into the next binade. Magnitudes from the midpoint above the
largest finite double on give the infinity.
-/

namespace ScalarLowering.Binary64

/-- The whole number nearest to a quotient; of two equally near ones, the even one. -/
def roundHalfEven (numerator denominator : Nat) : Nat :=
  let quotient := numerator / denominator
  let twice := 2 * (numerator % denominator)
  if twice < denominator then quotient
  else if denominator < twice then quotient + 1
  else quotient + quotient % 2

def nearestBits (numerator denominator : Nat) : Nat :=
  let scaled := numerator * Nat.pow 2 unitExponent
  let shift := (scaled / denominator).log2 - 52
  let rounded := roundHalfEven scaled (denominator * Nat.pow 2 shift)
  let bits := shift * hiddenWeight + rounded
  if bits < infinityBits then bits else infinityBits

/-- The magnitude bits of the double nearest to `coefficient * 10 ^ exponent`. A number whose
leading digit stands above the three hundred and tenth place is infinite, and one whose digits all
stand below the three hundred and thirtieth place behind the point is zero: both are known without
the power of ten. -/
def nearestScaled (coefficient : Nat) (exponent : Int) : Nat :=
  let leading : Int := (Numeral.digits coefficient).length + exponent
  if coefficient = 0 ∨ leading < -330 then 0
  else if 310 < leading then infinityBits
  else if 0 ≤ exponent then nearestBits (coefficient * Nat.pow 10 exponent.toNat) 1
  else nearestBits coefficient (Nat.pow 10 (-exponent).toNat)

end ScalarLowering.Binary64
