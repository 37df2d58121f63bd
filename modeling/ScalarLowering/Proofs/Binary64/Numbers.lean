import Mathlib.Algebra.Order.Field.Basic
import Mathlib.Algebra.Order.Field.Rat
import Mathlib.Tactic.FieldSimp
import Mathlib.Tactic.NormNum
import ScalarLowering.Proofs.Binary64.Nearest

/-!
Doubles as rational numbers. A double is the nearest to a number if it has the number's sign and no
finite double is nearer, one of even significand being preferred; from the midpoint between the largest
finite double and the next power of two on, it is the infinity. Every number has one such double, and
for a quotient it is the one that rounding gives.
-/

namespace ScalarLowering.Binary64

variable {x y : Binary64} {q : ℚ} {magnitude numerator denominator : Nat}

def IsFinite (x : Binary64) : Prop := x.magnitudeBits < infinityBits

instance (x : Binary64) : Decidable x.IsFinite := inferInstanceAs (Decidable (_ < _))

def magnitudeNumber (magnitude : Nat) : ℚ := units magnitude / 2 ^ unitExponent

def number (x : Binary64) : ℚ :=
  if x.isNegative then -magnitudeNumber x.magnitudeBits else magnitudeNumber x.magnitudeBits

/-- The midpoint between the largest finite double and the next power of two. -/
def overflowLimit : ℚ := 2 ^ 1024 - 2 ^ 970

/-- Rounding to nearest, ties to even: what it takes for a double to be the nearest to a number. -/
structure IsNearest (q : ℚ) (x : Binary64) : Prop where
  sign : x.isNegative = decide (q < 0)
  overflow : overflowLimit ≤ |q| → x.isInfinite
  finite : |q| < overflowLimit → x.IsFinite
  nearest : |q| < overflowLimit → ∀ y : Binary64, y.IsFinite → |x.number - q| ≤ |y.number - q|
  even : |q| < overflowLimit → ∀ y : Binary64, y.IsFinite → y.number ≠ x.number →
    |y.number - q| = |x.number - q| → x.magnitudeBits % 2 = 0

theorem magnitudeNumber_strictMono : StrictMono magnitudeNumber := by
  intro lesser greater less
  have units := units_strictMono less
  exact div_lt_div_of_pos_right (Nat.cast_lt.mpr units) (by positivity)

theorem magnitudeNumber_zero : magnitudeNumber 0 = 0 := by
  rw [magnitudeNumber]
  exact zero_div _

theorem magnitudeNumber_nonneg (magnitude : Nat) : 0 ≤ magnitudeNumber magnitude :=
  div_nonneg (Nat.cast_nonneg _) (by positivity)

theorem abs_number (x : Binary64) : |x.number| = magnitudeNumber x.magnitudeBits := by
  rw [number]
  split
  · rw [abs_neg, abs_of_nonneg (magnitudeNumber_nonneg _)]
  · rw [abs_of_nonneg (magnitudeNumber_nonneg _)]

theorem abs_magnitudeNumber_sub_le (x : Binary64) (q : ℚ) :
    |(magnitudeNumber x.magnitudeBits - |q|)| ≤ |x.number - q| := by
  rw [← abs_number]
  exact abs_abs_sub_abs_le _ _

theorem abs_number_sub (sign : x.isNegative = decide (q < 0)) :
    |x.number - q| = |(magnitudeNumber x.magnitudeBits - |q|)| := by
  rw [number, sign]
  by_cases negative : q < 0
  · rw [decide_eq_true negative, if_pos rfl, abs_of_neg negative, ← abs_neg]
    congr 1
    ring
  · rw [decide_eq_false negative, if_neg Bool.false_ne_true, abs_of_nonneg (not_lt.mp negative)]

theorem overflowLimit_eq : overflowLimit = (4 * hiddenWeight - 1 : Nat) * 2 ^ 970 := by
  have power : (2 : ℚ) ^ 1024 = 2 ^ 54 * 2 ^ 970 := by rw [← pow_add]
  have weight : ((4 * hiddenWeight - 1 : Nat) : ℚ) = 2 ^ 54 - 1 := by
    rw [hiddenWeight]
    norm_num
  rw [overflowLimit, power, weight, sub_mul, one_mul]

theorem one_lt_overflowLimit : 1 < overflowLimit := by
  have weight : (1 : ℚ) < (4 * hiddenWeight - 1 : Nat) := Nat.one_lt_cast.mpr (by decide)
  rw [overflowLimit_eq]
  exact weight.trans_le (le_mul_of_one_le_right (by positivity) (one_le_pow₀ one_le_two))

namespace IsNearest

theorem isFinite_iff (rounded : IsNearest q x) : x.IsFinite ↔ |q| < overflowLimit := by
  refine ⟨fun finite => lt_of_not_ge fun beyond => ?_, rounded.finite⟩
  exact finite.ne (of_decide_eq_true (rounded.overflow beyond))

theorem abs_ofMagnitude_sub (rounded : IsNearest q x) (bounded : magnitude ≤ infinityBits) :
    |(ofMagnitude x.isNegative magnitude).number - q| = |(magnitudeNumber magnitude - |q|)| := by
  have sign : (ofMagnitude x.isNegative magnitude).isNegative = decide (q < 0) := by
    rw [isNegative_ofMagnitude bounded, rounded.sign]
  rw [abs_number_sub sign, magnitudeBits_ofMagnitude bounded]

section Others

variable (rounded : IsNearest q x) (finite : x.IsFinite) (other : magnitude < infinityBits)

include rounded finite other

theorem magnitude_nearest :
    |(magnitudeNumber x.magnitudeBits - |q|)| ≤ |(magnitudeNumber magnitude - |q|)| := by
  have nearest := rounded.nearest (rounded.isFinite_iff.mp finite)
    (ofMagnitude x.isNegative magnitude) (by rwa [IsFinite, magnitudeBits_ofMagnitude other.le])
  rwa [abs_number_sub rounded.sign, rounded.abs_ofMagnitude_sub other.le] at nearest

theorem magnitude_even (apart : magnitude ≠ x.magnitudeBits)
    (tie : |(magnitudeNumber magnitude - |q|)| = |(magnitudeNumber x.magnitudeBits - |q|)|) :
    x.magnitudeBits % 2 = 0 := by
  have bits : (ofMagnitude x.isNegative magnitude).magnitudeBits = magnitude :=
    magnitudeBits_ofMagnitude other.le
  refine rounded.even (rounded.isFinite_iff.mp finite) (ofMagnitude x.isNegative magnitude) ?_ ?_ ?_
  · rwa [IsFinite, bits]
  · intro same
    have magnitudes := congrArg abs same
    rw [abs_number, abs_number, bits] at magnitudes
    exact apart (magnitudeNumber_strictMono.injective magnitudes)
  · rw [rounded.abs_ofMagnitude_sub other.le, abs_number_sub rounded.sign, tie]

end Others

/-- Of two doubles on both sides of a number and equally near, one next to the lesser is nearer. -/
theorem not_lt (first : IsNearest q x) (second : IsNearest q y) :
    ¬ x.magnitudeBits < y.magnitudeBits := by
  intro less
  have within : |q| < overflowLimit := by
    refine lt_of_not_ge fun beyond => less.ne ?_
    rw [of_decide_eq_true (first.overflow beyond), of_decide_eq_true (second.overflow beyond)]
  have finite := first.finite within
  have otherFinite := second.finite within
  have tie := (first.magnitude_nearest finite otherFinite).antisymm
    (second.magnitude_nearest otherFinite finite)
  have even := first.magnitude_even finite otherFinite less.ne' tie.symm
  have otherEven := second.magnitude_even otherFinite finite less.ne tie
  have between : x.magnitudeBits + 1 < y.magnitudeBits := by omega
  have nearest := first.magnitude_nearest finite (between.trans otherFinite)
  have low := magnitudeNumber_strictMono (Nat.lt_succ_self x.magnitudeBits)
  have high := magnitudeNumber_strictMono between
  grind

theorem unique (first : IsNearest q x) (second : IsNearest q y) : x = y := by
  refine eq_of_magnitudeBits (first.sign.trans second.sign.symm) ?_
  exact Nat.le_antisymm (Nat.not_lt.mp (second.not_lt first)) (Nat.not_lt.mp (first.not_lt second))

/-- Numbers of at most half the least positive double are rounded to zero. -/
theorem magnitudeBits_eq_zero_iff (rounded : IsNearest q x) :
    x.magnitudeBits = 0 ↔ 2 * |q| ≤ magnitudeNumber 1 := by
  have least := magnitudeNumber_strictMono Nat.zero_lt_one
  rw [magnitudeNumber_zero] at least
  constructor
  · intro zero
    have finite : x.IsFinite := zero.trans_lt (by decide)
    have nearest := rounded.magnitude_nearest finite (by decide : 1 < infinityBits)
    rw [zero, magnitudeNumber_zero] at nearest
    grind
  · intro small
    have within : |q| < overflowLimit := by
      have one : magnitudeNumber 1 ≤ 1 := div_le_one_of_le₀ (one_le_pow₀ one_le_two) (by positivity)
      have limit := one_lt_overflowLimit
      grind
    have finite := rounded.finite within
    have nearest := rounded.magnitude_nearest finite (by decide : 0 < infinityBits)
    rw [magnitudeNumber_zero] at nearest
    by_contra nonzero
    have positive : 1 ≤ x.magnitudeBits := Nat.pos_of_ne_zero nonzero
    have above := magnitudeNumber_strictMono.monotone positive
    -- The number is the midpoint below the least positive double, which is odd.
    have one : magnitudeNumber x.magnitudeBits = magnitudeNumber 1 := by grind
    have even := rounded.magnitude_even finite (by decide : 0 < infinityBits) (by omega)
      (by rw [magnitudeNumber_zero]; grind)
    rw [magnitudeNumber_strictMono.injective one] at even
    contradiction

theorem eq_zero (rounded : IsNearest 0 x) : x = ⟨0⟩ := by
  refine eq_of_magnitudeBits rounded.sign (rounded.magnitudeBits_eq_zero_iff.mpr ?_)
  rw [abs_zero, mul_zero]
  exact magnitudeNumber_nonneg 1

end IsNearest

theorem cast_dist (a b : Nat) : (Nat.dist a b : ℚ) = |(a : ℚ) - b| := by
  rcases Nat.le_total a b with less | greater
  · rw [Nat.dist_eq_sub_of_le less, Nat.cast_sub less, abs_sub_comm, abs_of_nonneg]
    exact sub_nonneg.mpr (Nat.cast_le.mpr less)
  · rw [Nat.dist_eq_sub_of_le_right greater, Nat.cast_sub greater, abs_of_nonneg]
    exact sub_nonneg.mpr (Nat.cast_le.mpr greater)

section Quotient

variable (numerator) (positive : 0 < denominator)

include positive

theorem abs_magnitudeNumber_sub (magnitude : Nat) :
    |magnitudeNumber magnitude - (numerator : ℚ) / denominator| =
      Nat.dist (units magnitude * denominator) (inUnits numerator) /
        (2 ^ unitExponent * denominator) := by
  have divisor : (0 : ℚ) < denominator := Nat.cast_pos.mpr positive
  have unit : (0 : ℚ) < 2 ^ unitExponent := by positivity
  have common : magnitudeNumber magnitude - (numerator : ℚ) / denominator =
      (((units magnitude * denominator : Nat) : ℚ) - (inUnits numerator : Nat)) /
        (2 ^ unitExponent * denominator) := by
    rw [magnitudeNumber, inUnits, natPow_eq, Nat.cast_mul, Nat.cast_mul, Nat.cast_pow, Nat.cast_ofNat]
    field_simp
  rw [common, abs_div, ← cast_dist, abs_of_pos (mul_pos unit divisor)]

theorem nearestBits_lt_iff_div_lt :
    nearestBits numerator denominator < infinityBits ↔
      (numerator : ℚ) / denominator < overflowLimit := by
  have divisor : (0 : ℚ) < denominator := Nat.cast_pos.mpr positive
  have weight : (2044 + 3) * hiddenWeight = infinityBits := rfl
  have limit : overflowLimit = ((4 * hiddenWeight - 1) * 2 ^ 970 : Nat) := by
    rw [overflowLimit_eq, Nat.cast_mul, Nat.cast_pow, Nat.cast_ofNat]
  have power : (4 * hiddenWeight - 1) * (denominator * 2 ^ 2044) =
      (4 * hiddenWeight - 1) * 2 ^ 970 * denominator * 2 ^ unitExponent := by
    have parts : 2044 = 970 + unitExponent := rfl
    rw [parts, pow_add, ← Nat.mul_assoc denominator, ← Nat.mul_assoc, Nat.mul_comm denominator,
      ← Nat.mul_assoc (4 * hiddenWeight - 1)]
  rw [nearestBits_lt_iff, ← weight, unboundedBits_lt_iff numerator positive, power, inUnits, natPow_eq,
    Nat.mul_lt_mul_right (Nat.two_pow_pos _), div_lt_iff₀ divisor, limit, ← Nat.cast_mul, Nat.cast_lt]

/-- If a quotient is rounded to a finite magnitude, no other is nearer, and if another one is equally
near, the given one is even. -/
theorem nearestBits_nearest (finite : nearestBits numerator denominator < infinityBits)
    (other : magnitude ≠ nearestBits numerator denominator) :
    |magnitudeNumber (nearestBits numerator denominator) - (numerator : ℚ) / denominator| ≤
        |magnitudeNumber magnitude - (numerator : ℚ) / denominator| ∧
      (|magnitudeNumber magnitude - (numerator : ℚ) / denominator| =
          |magnitudeNumber (nearestBits numerator denominator) - (numerator : ℚ) / denominator| →
        nearestBits numerator denominator % 2 = 0) := by
  rw [nearestBits_eq_of_lt finite] at other ⊢
  obtain ⟨near, even⟩ := unboundedBits_nearest numerator positive other
  have common : (0 : ℚ) < 2 ^ unitExponent * denominator :=
    mul_pos (by positivity) (Nat.cast_pos.mpr positive)
  simp only [abs_magnitudeNumber_sub numerator positive]
  refine ⟨div_le_div_of_nonneg_right (Nat.cast_le.mpr near) common.le, fun tie => even ?_⟩
  exact Nat.cast_injective ((div_left_inj' common.ne').mp tie)

theorem isNearest_ofMagnitude (quotient : |q| = numerator / denominator) :
    IsNearest q (ofMagnitude (decide (q < 0)) (nearestBits numerator denominator)) := by
  have bounded := nearestBits_le numerator denominator
  have sign : (ofMagnitude (decide (q < 0)) (nearestBits numerator denominator)).isNegative =
      decide (q < 0) := isNegative_ofMagnitude bounded
  have bits : (ofMagnitude (decide (q < 0)) (nearestBits numerator denominator)).magnitudeBits =
      nearestBits numerator denominator := magnitudeBits_ofMagnitude bounded
  have limit := nearestBits_lt_iff_div_lt numerator positive
  rw [← quotient] at limit
  have nearest (within : |q| < overflowLimit) {magnitude : Nat}
      (other : magnitude ≠ nearestBits numerator denominator) :=
    nearestBits_nearest numerator positive (limit.mpr within) other
  rw [← quotient] at nearest
  generalize ofMagnitude (decide (q < 0)) (nearestBits numerator denominator) = x at sign bits ⊢
  rw [← bits] at bounded limit nearest
  constructor
  case sign => exact sign
  case overflow =>
    intro beyond
    exact decide_eq_true (bounded.antisymm (not_lt.mp (mt limit.mp beyond.not_gt)))
  case finite => exact limit.mpr
  case nearest =>
    intro within y _
    rw [abs_number_sub sign]
    refine le_trans ?_ (abs_magnitudeNumber_sub_le y q)
    by_cases same : y.magnitudeBits = x.magnitudeBits
    · rw [same]
    · exact (nearest within same).1
  case even =>
    intro within y _ apart tie
    have near := abs_magnitudeNumber_sub_le y q
    rw [tie, abs_number_sub sign] at near
    by_cases same : y.magnitudeBits = x.magnitudeBits
    · -- Two opposite doubles are equally near to zero only, from which a zero is not away.
      have opposite : y.number = -x.number := by
        refine (abs_eq_abs.mp ?_).resolve_left apart
        rw [abs_number, abs_number, same]
      obtain rfl : q = 0 := by
        rw [opposite] at apart tie
        rcases abs_eq_abs.mp tie <;> grind
      by_contra odd
      have present : 0 < x.magnitudeBits := Nat.pos_of_ne_zero fun zero => odd (by rw [zero])
      have less := magnitudeNumber_strictMono present
      have least := (nearest within present.ne).1
      rw [magnitudeNumber_zero] at less least
      grind
    · exact (nearest within same).2 (near.antisymm (nearest within same).1)

end Quotient

end ScalarLowering.Binary64
