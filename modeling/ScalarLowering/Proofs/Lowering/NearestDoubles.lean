import ScalarLowering.Proofs.Binary64.Numbers
import ScalarLowering.Proofs.Binary64.Text
import ScalarLowering.Proofs.Decimal.Spelling
import ScalarLowering.Proofs.Lowering.Constants

/-!
Exact numbers as doubles. An integer and a decimal of any scale become the double that is nearest to
them: their text is a numeral of the same number, whether it has an exponent or not, and numerals are
rounded once.
-/

namespace ScalarLowering

namespace Binary64

open Numeral

theorem isNearest_scaled (coefficient places : Int) :
    IsNearest (scaled coefficient places)
      (ofMagnitude (coefficient < 0) (nearestScaled coefficient.natAbs (-places))) := by
  have nearest := isNearest_ofMagnitude _ (Nat.pow_pos (by decide)) (abs_scaled coefficient places)
  rw [nearestScaled_eq, Int.neg_neg]
  simpa only [scaled_neg_iff] using nearest

theorem ofChars?_isNearest {text whole fraction : List Char} {exponent : Option Int}
    {coefficient places : Int}
    (numeral : Scientific text (coefficient < 0) whole fraction exponent)
    (counted : value (whole ++ fraction) = coefficient.natAbs)
    (scale : fraction.length - exponent.getD 0 = places) :
    ∃ x, ofChars? text = some x ∧ IsNearest (scaled coefficient places) x := by
  refine ⟨_, ofChars?_scientific numeral, ?_⟩
  have power : exponent.getD 0 - fraction.length = -places := by omega
  rw [counted, power]
  exact isNearest_scaled coefficient places

end Binary64

namespace Literal

open Binary64 Numeral

theorem lower_double_isNearest {value : Literal} {coefficient places : Int}
    (present : value ≠ .null)
    (read : ∃ x, ofChars? value.chars = some x ∧ IsNearest (scaled coefficient places) x) :
    ∃ x, value.lower .double = .ok (.double x) ∧
      ∀ y, IsNearest (scaled coefficient places) y ↔ y = x := by
  obtain ⟨x, same, nearest⟩ := read
  refine ⟨x, ?_, fun y => ⟨fun rounded => rounded.unique nearest, ?_⟩⟩
  · rw [lower_double, map_eq_ok]
    exact ⟨x, (read_eq_ok_iff present).mpr same, rfl⟩
  · rintro rfl
    exact nearest

/-- Integers and decimals, of any scale and any precision, become the nearest double, which is one
only. -/
theorem lower_double_rounded (i : Int64) (d : Decimal) :
    (∃ x, (Literal.exact i).lower .double = .ok (.double x) ∧
      ∀ y, IsNearest i.toInt y ↔ y = x) ∧
    (∃ x, (Literal.decimal d).lower .double = .ok (.double x) ∧
      ∀ y, IsNearest (scaled d.unscaled d.scale.toInt) y ↔ y = x) := by
  constructor
  · rw [← scaled_zero]
    have numeral := (pointed_ofInt i.toInt).scientific
    refine lower_double_isNearest nofun (ofChars?_isNearest numeral ?_ rfl)
    rw [List.append_nil, value_digits]
  · obtain ⟨whole, fraction, exponent, numeral, counted, scale, _⟩ := d.scientific_chars
    exact lower_double_isNearest nofun (ofChars?_isNearest numeral counted scale)

end Literal
end ScalarLowering
