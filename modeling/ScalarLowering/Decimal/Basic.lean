import ScalarLowering.Text.Numeral

/-!
Fixed-point decimals. A decimal is an integer together with the power of ten that divides it. Its
precision is the number of digits that its producer attributes to it: unless stated otherwise, the
digits of the integer are counted.
-/

namespace ScalarLowering

/-- The number `unscaled * 10 ^ (-scale)`, with an attributed count of significant digits. -/
structure Decimal where
  unscaled : Int
  precision : UInt32
  scale : Int32
  deriving DecidableEq

namespace Decimal

def digits (d : Decimal) : List Char := Numeral.digits d.unscaled.natAbs

/-- The number of decimal digits of `i`, as a 32-bit count. -/
def digitCount (i : Int) : UInt32 := UInt32.ofNat (Numeral.digits i.natAbs).length

def ofUnscaled (unscaled : Int) (scale : Int32) : Decimal :=
  ⟨unscaled, digitCount unscaled, scale⟩

def withPrecision (d : Decimal) (precision : UInt32) : Decimal :=
  ⟨d.unscaled, precision, d.scale⟩

end Decimal
end ScalarLowering
