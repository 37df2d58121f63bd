/-!
Positional notation: digits with a decimal point among them, and digits scaled by a power of ten.
No exponent is ever written, and no zeros beyond those the position of the point asks for.
-/

namespace ScalarLowering.Positional

/-- Sets a point before the last `places` digits. Zeros are put in front until a digit stands before
the point, and no point is written when no digit follows it. -/
def withPoint (digits : List Char) (places : Nat) : List Char :=
  if places = 0 then digits
  else
    let padded := List.replicate (places + 1 - digits.length) '0' ++ digits
    padded.take (padded.length - places) ++ '.' :: padded.drop (padded.length - places)

def scaled (digits : List Char) (exponent : Int) : List Char :=
  if 0 ≤ exponent then digits ++ List.replicate exponent.toNat '0'
  else withPoint digits (-exponent).toNat

end ScalarLowering.Positional
