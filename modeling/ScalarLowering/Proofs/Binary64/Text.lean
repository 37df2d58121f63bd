import Mathlib.Data.List.TakeWhile
import ScalarLowering.Proofs.Binary64.Rounding
import ScalarLowering.Proofs.Text.Exponents

/-!
A double is read back from its text, bit for bit. Whichever digits are chosen, they are on a grid
on which they round to the double again, and the text is a numeral of those digits at that place.
-/

namespace ScalarLowering.Binary64

open Numeral

variable {magnitude coefficient grid : Nat}

theorem nearestScaled_grid (coefficient grid : Nat) :
    nearestScaled coefficient ((grid : Int) - unitExponent) =
      nearestBits (coefficient * Nat.pow 10 grid) (Nat.pow 10 unitExponent) := by
  have common : 0 < 10 ^ min grid unitExponent := Nat.pow_pos (by decide)
  have above : min grid unitExponent + ((grid : Int) - unitExponent).toNat = grid := by omega
  have below : min grid unitExponent + (-((grid : Int) - unitExponent)).toNat = unitExponent := by
    omega
  rw [nearestScaled_eq, ← nearestBits_mul_left common, mul_left_comm, ← pow_add, ← pow_add, above,
    below, natPow_eq, natPow_eq]

theorem readsBack_iff : readsBack magnitude coefficient grid = true ↔
    nearestBits (coefficient * Nat.pow 10 grid) (Nat.pow 10 unitExponent) = magnitude :=
  decide_eq_true_iff

theorem readsBack_of_onGrid? (found : onGrid? magnitude grid = some coefficient) :
    readsBack magnitude coefficient grid := by
  unfold onGrid? at found
  simp only at found
  split at found
  next above =>
    cases found
    exact (Bool.and_eq_true_iff.mp above).1
  next =>
    split at found
    next below =>
      cases found
      exact below
    next => cases found

theorem readsBack_decimalUnits (finite : magnitude < infinityBits) :
    readsBack magnitude (decimalUnits magnitude) 0 := by
  have ten (power : Nat) : Nat.pow 10 power = Nat.pow 5 power * Nat.pow 2 power := mul_pow 5 2 power
  have positive : 0 < Nat.pow 5 unitExponent := by simp
  rw [readsBack_iff, natPow_eq 10 0, pow_zero, mul_one, decimalUnits, ten, mul_comm,
    nearestBits_mul_left positive, nearestBits_units finite]

/-- What holds of every point that is found, and of the finest one, holds of the first. -/
theorem firstOnGrids_spec {point? : Nat → Option Nat} {finest : Nat} (property : Nat → Nat → Prop)
    (found : ∀ {coefficient grid}, point? grid = some coefficient → property coefficient grid)
    (held : property finest 0) (grid : Nat) :
    property (firstOnGrids point? finest grid).1 (firstOnGrids point? finest grid).2 := by
  induction grid with
  | zero => exact held
  | succ grid induction =>
      rw [firstOnGrids]
      split
      next coefficient point => exact found point
      next => exact induction

theorem readsBack_shortest (finite : magnitude < infinityBits) :
    readsBack magnitude (shortest magnitude).1 (shortest magnitude).2 :=
  firstOnGrids_spec (readsBack magnitude · ·) readsBack_of_onGrid? (readsBack_decimalUnits finite) _

/-- The shortest decimal of a magnitude is rounded to that magnitude. -/
theorem nearestScaled_shortest (finite : magnitude < infinityBits) :
    nearestScaled (shortest magnitude).1 ((shortest magnitude).2 - unitExponent) = magnitude := by
  rw [nearestScaled_grid]
  exact readsBack_iff.mp (readsBack_shortest finite)

/-- No character of a numeral becomes the letter that the names of the infinities and of NaN
share. -/
theorem toLower_ne {c : Char} (numeric : c.isDigit ∨ c ∈ ['.', '+', '-', 'e', 'E']) :
    c.toLower ≠ 'n' := by
  rcases numeric with digit | other
  · simp only [Char.isDigit, Bool.and_eq_true, decide_eq_true_eq, ge_iff_le,
      UInt32.le_iff_toNat_le] at digit
    have lower : c.toLower = c := by
      refine dif_neg ?_
      simp only [ge_iff_le, UInt32.le_iff_toNat_le]
      grind
    rw [lower]
    intro letter
    subst letter
    grind
  · simp only [List.mem_cons, List.not_mem_nil, or_false] at other
    rcases other with rfl | rfl | rfl | rfl | rfl <;> decide

section Reading

variable {text whole tail fraction back : List Char} {exponent : Option Int} {negative : Bool}

theorem numeralBits?_append (tailed : Tail tail fraction) (written : Exponent back exponent)
    (digits : ∀ c ∈ whole ++ fraction, c.isDigit) (nonempty : whole ++ fraction ≠ []) :
    numeralBits? (whole ++ (tail ++ back)) =
      some (nearestScaled (value (whole ++ fraction)) (exponent.getD 0 - fraction.length)) := by
  have wholeDigits : ∀ c ∈ whole, c.isDigit := fun c member =>
    digits c (List.mem_append_left fraction member)
  have fractionDigits : ∀ c ∈ fraction, c.isDigit := fun c member =>
    digits c (List.mem_append_right whole member)
  have read : ¬ (whole = [] ∧ fraction = []) := by
    rw [← List.append_eq_nil_iff]
    exact nonempty
  simp only [numeralBits?, takeWhile_whole tailed written wholeDigits,
    dropWhile_whole tailed written wholeDigits, splitFraction_append tailed written fractionDigits,
    read, if_false, exponent?_eq written, Option.map_some]

theorem map_toLower_ne (numeral : Scientific text negative whole fraction exponent) (name : String)
    (named : 'n' ∈ name.toList) : String.ofList ((splitSign text).2.map Char.toLower) ≠ name := by
  intro same
  rw [← same, String.toList_ofList, List.mem_map] at named
  obtain ⟨c, member, lower⟩ := named
  exact toLower_ne (numeral.isDigit_or_mem (mem_of_mem_splitSign member)) lower

theorem ofChars?_scientific (numeral : Scientific text negative whole fraction exponent) :
    ofChars? text = some (ofMagnitude negative
      (nearestScaled (value (whole ++ fraction)) (exponent.getD 0 - fraction.length))) := by
  have unnamed := map_toLower_ne numeral
  obtain ⟨tail, back, tailed, written, body⟩ := numeral.splitSign_eq
  rw [body] at unnamed
  have bits : magnitudeBits? (whole ++ (tail ++ back)) =
      some (nearestScaled (value (whole ++ fraction)) (exponent.getD 0 - fraction.length)) := by
    simp only [magnitudeBits?, unnamed "inf" (by decide), unnamed "infinity" (by decide),
      unnamed "nan" (by decide), or_self, if_false,
      numeralBits?_append tailed written numeral.digits numeral.nonempty]
  simp only [ofChars?, body, bits, Option.map_some]

theorem ofChars?_pointed (pointed : Pointed text negative whole fraction) :
    ofChars? text =
      some (ofMagnitude negative (nearestScaled (value (whole ++ fraction)) (-fraction.length))) := by
  rw [ofChars?_scientific pointed.scientific, Option.getD_none, Int.zero_sub]

end Reading

theorem nearestScaled_written (coefficient : Nat) (exponent : Int) :
    nearestScaled (coefficient * 10 ^ exponent.toNat) (-(-exponent).toNat) =
      nearestScaled coefficient exponent := by
  have whole : (-((-exponent).toNat : Int)).toNat = 0 := by omega
  rw [nearestScaled_eq, nearestScaled_eq, whole, pow_zero, mul_one, Int.neg_neg, Int.toNat_natCast]

/-- The text of a finite magnitude is a numeral that is rounded to it, and has no more places than the
finest grid. -/
theorem pointed_magnitudeChars (negative : Bool) (finite : magnitude < infinityBits) :
    ∃ whole fraction, Pointed (withSign negative (magnitudeChars magnitude)) negative whole fraction ∧
      nearestScaled (value (whole ++ fraction)) (-fraction.length) = magnitude ∧
      fraction.length ≤ unitExponent := by
  rw [magnitudeChars]
  split
  next zero =>
    have digits : ∀ c ∈ ['0'], c.isDigit := List.all_eq_true.mp rfl
    refine ⟨['0'], [], pointed_digits negative digits (List.cons_ne_nil _ _), ?_, Nat.zero_le _⟩
    rw [zero]
    rfl
  next =>
    obtain ⟨whole, fraction, pointed, counted, places⟩ := pointed_scaled negative
      (shortest magnitude).1 ((shortest magnitude).2 - unitExponent)
    refine ⟨whole, fraction, pointed, ?_, by omega⟩
    rw [counted, places, nearestScaled_written, nearestScaled_shortest finite]

/-- The double that a text of a double is read as: that double, but one NaN for all of them. -/
theorem ofChars?_chars (x : Binary64) :
    ofChars? x.chars = some (if x.isNaN then ⟨0x7FF8000000000000⟩ else x) := by
  rw [chars]
  split
  next => rfl
  next number =>
    have same := ofMagnitude_magnitudeBits x
    split
    next infinite =>
      rw [isInfinite, decide_eq_true_eq] at infinite
      have read : ofChars? (withSign x.isNegative ['i', 'n', 'f']) =
          some (ofMagnitude x.isNegative infinityBits) := by
        cases x.isNegative <;> rfl
      rw [read, ← infinite, same]
    next finite =>
      have below : x.magnitudeBits < infinityBits := by
        simp only [isNaN, isInfinite, decide_eq_true_eq] at number finite
        omega
      obtain ⟨whole, fraction, pointed, nearest, _⟩ := pointed_magnitudeChars x.isNegative below
      rw [ofChars?_pointed pointed, nearest, same]

end ScalarLowering.Binary64
