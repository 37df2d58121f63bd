/-!
Double-precision binary numbers by their bit patterns. The highest bit is the sign, the next eleven
are the exponent and the last fifty-two the fraction. A finite magnitude is a whole number of units,
the unit being the least positive double; the magnitudes are ordered as their bit patterns are.
-/

namespace ScalarLowering

/-- A double, identified by its bits, so that the two zeros and all NaNs stay apart. -/
structure Binary64 where
  bits : UInt64
  deriving DecidableEq

namespace Binary64

def signWeight : Nat := 0x8000000000000000

/-- The weight of the lowest exponent bit, which is also the significand of the least normal
double. -/
def hiddenWeight : Nat := 0x10000000000000

/-- The magnitude bits of the infinities. Finite magnitudes lie below, and NaNs above. -/
def infinityBits : Nat := 0x7FF0000000000000

def quietBits : Nat := 0x7FF8000000000000

def isNegative (x : Binary64) : Bool := signWeight ≤ x.bits.toNat

def magnitudeBits (x : Binary64) : Nat := x.bits.toNat % signWeight

def isNaN (x : Binary64) : Bool := infinityBits < x.magnitudeBits

def isInfinite (x : Binary64) : Bool := x.magnitudeBits = infinityBits

def ofMagnitude (negative : Bool) (magnitude : Nat) : Binary64 :=
  ⟨UInt64.ofNat (if negative then signWeight + magnitude else magnitude)⟩

/-- How many units, the unit being the least positive double, finite magnitude bits stand for. An
exponent field of zero has no hidden bit. -/
def units (magnitude : Nat) : Nat :=
  let exponent := magnitude / hiddenWeight
  let fraction := magnitude % hiddenWeight
  if exponent = 0 then fraction else (hiddenWeight + fraction) * Nat.pow 2 (exponent - 1)

/-- There are two to the power of this many units in one. -/
def unitExponent : Nat := 1074

end Binary64
end ScalarLowering
