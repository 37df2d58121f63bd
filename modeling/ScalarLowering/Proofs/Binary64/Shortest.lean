import ScalarLowering.Proofs.Binary64.Nearest
import ScalarLowering.Proofs.Binary64.Text
import ScalarLowering.Proofs.Text.Integers

/-!
Doubles whose text is an integer. They are the whole doubles, since a whole number is found on the grid
of ones at the latest. The integer that the shortest digits spell is rounded to the double, but where
doubles are farther apart than ones it need not be the double itself.
-/

namespace ScalarLowering.Binary64

open Numeral

variable {magnitude coefficient grid whole n : Nat}

def IsWhole (magnitude whole : Nat) : Prop := units magnitude = whole * 2 ^ unitExponent

instance (magnitude whole : Nat) : Decidable (IsWhole magnitude whole) :=
  inferInstanceAs (Decidable (_ = _))

/-- An integer that the shortest digits of a magnitude spell. It is rounded to the magnitude, and
unless zeros fill up its last places, it is the magnitude itself. -/
structure IsSpelling (magnitude n : Nat) : Prop where
  rounded : nearestBits n 1 = magnitude
  exact : IsWhole magnitude n ∨ 10 ∣ n

/-- A search does not pass by a grid that has a point. -/
theorem le_firstOnGrids {point? : Nat → Option Nat} {finest start : Nat}
    (found : point? grid = some coefficient) (positive : 0 < grid) (within : grid ≤ start) :
    grid ≤ (firstOnGrids point? finest start).2 := by
  induction start with
  | zero => omega
  | succ start induction =>
      rw [firstOnGrids]
      split
      next => exact within
      next none =>
        refine induction (Nat.le_of_lt_succ (Nat.lt_of_le_of_ne within ?_))
        rintro rfl
        rw [found] at none
        contradiction

theorem onGrid?_of_eq (finite : magnitude < infinityBits)
    (same : decimalUnits magnitude = coefficient * 10 ^ grid) :
    onGrid? magnitude grid = some coefficient := by
  have spacing : 0 < Nat.pow 10 grid := Nat.pow_pos (by decide)
  have below : decimalUnits magnitude / Nat.pow 10 grid = coefficient := by
    rw [same]
    exact Nat.mul_div_cancel _ spacing
  have rest : decimalUnits magnitude % Nat.pow 10 grid = 0 := by
    rw [same]
    exact Nat.mul_mod_left _ _
  have fits : readsBack magnitude coefficient grid = true := by
    have finest := readsBack_iff.mp (readsBack_decimalUnits finite)
    rw [natPow_eq 10 0, pow_zero, mul_one, same] at finest
    exact readsBack_iff.mpr finest
  have apart : ¬ Nat.pow 10 grid ≤ 2 * 0 := by omega
  simp only [onGrid?, below, rest, fits, apart, decide_false, Bool.not_true, Bool.or_false,
    Bool.and_false, Bool.false_eq_true, if_false, if_true]

namespace IsWhole

variable (exact : IsWhole magnitude whole)

include exact

theorem decimalUnits_eq : decimalUnits magnitude = whole * 10 ^ unitExponent := by
  have ten (power : Nat) : 10 ^ power = 2 ^ power * 5 ^ power := mul_pow 2 5 power
  rw [decimalUnits, exact, natPow_eq, ten, mul_assoc]

variable (finite : magnitude < infinityBits)

include finite

theorem onGrid?_eq : onGrid? magnitude unitExponent = some whole :=
  onGrid?_of_eq finite exact.decimalUnits_eq

theorem unitExponent_le_shortest (positive : 0 < whole) : unitExponent ≤ (shortest magnitude).2 := by
  refine le_firstOnGrids (exact.onGrid?_eq finite) (by decide) ?_
  have low := lt_pow_length (decimalUnits magnitude)
  have high : 10 ^ unitExponent ≤ decimalUnits magnitude := by
    rw [exact.decimalUnits_eq]
    exact Nat.le_mul_of_pos_left _ positive
  exact ((Nat.pow_lt_pow_iff_right (by decide)).mp (high.trans_lt low)).le

theorem shortest_eq (ones : (shortest magnitude).2 = unitExponent) :
    (shortest magnitude).1 = whole := by
  refine firstOnGrids_spec (fun coefficient grid => grid = unitExponent → coefficient = whole) ?_ ?_ _
    ones
  · rintro coefficient _ found rfl
    rw [exact.onGrid?_eq finite] at found
    exact (Option.some.inj found).symm
  · nofun

end IsWhole

section Rounded

variable (finite : magnitude < infinityBits) (rounded : nearestBits n 1 = magnitude)

include finite rounded

/-- No number that a double holds is nearer to an integer than the double that it is rounded to. -/
theorem dist_units_le {significand shift : Nat} (low : significand < 2 * hiddenWeight)
    (high : shift ≤ 971) :
    Nat.dist (units magnitude) (n * 2 ^ unitExponent) ≤
      Nat.dist (significand * 2 ^ shift * 2 ^ unitExponent) (n * 2 ^ unitExponent) := by
  have bound : shift + unitExponent ≤ 2045 := by
    rw [unitExponent]
    omega
  obtain ⟨other, _, same⟩ := exists_units (shift + unitExponent) low bound
  have bits : magnitude = unboundedBits n 1 := by
    rw [← rounded] at finite ⊢
    exact nearestBits_eq_of_lt finite
  have inOnes : inUnits n = n * 2 ^ unitExponent := by rw [inUnits, natPow_eq]
  rw [mul_assoc, ← pow_add, ← same, ← inOnes]
  by_cases distinct : other = magnitude
  · rw [distinct]
  · rw [bits] at distinct ⊢
    have near := (unboundedBits_nearest n Nat.one_pos distinct).1
    rwa [mul_one, mul_one] at near

theorem exists_isWhole : ∃ whole, IsWhole magnitude whole := by
  by_cases small : n < 2 * hiddenWeight
  · have near := dist_units_le finite rounded small (Nat.zero_le 971)
    rw [pow_zero, mul_one, Nat.dist_self, Nat.le_zero] at near
    exact ⟨n, Nat.eq_of_dist_eq_zero near⟩
  · rcases units_grid magnitude unitExponent with multiple | ⟨_, below⟩
    · exact multiple
    · have near := dist_units_le finite rounded (by decide : hiddenWeight < 2 * hiddenWeight)
        (by decide : 1 ≤ 971)
      have far := Nat.mul_le_mul_right (2 ^ unitExponent) (Nat.not_lt.mp small)
      have one : hiddenWeight * 2 ^ 1 = 2 * hiddenWeight := rfl
      rw [one] at near
      rw [Nat.mul_assoc] at near far
      unfold Nat.dist at near
      omega

end Rounded

section Text

variable {negative : Bool}

theorem toInt?_zero : toInt? (withSign negative (magnitudeChars 0)) = some (signed negative 0) := by
  cases negative <;> rfl

theorem toInt?_magnitudeChars (nonzero : magnitude ≠ 0) :
    toInt? (withSign negative (magnitudeChars magnitude)) =
      if (shortest magnitude).2 < unitExponent then none
      else some (signed negative
        ((shortest magnitude).1 * 10 ^ ((shortest magnitude).2 - unitExponent))) := by
  have behind : ((shortest magnitude).2 - unitExponent : Int) < 0 ↔
      (shortest magnitude).2 < unitExponent := by omega
  rw [magnitudeChars, if_neg nonzero, toInt?_scaled, Int.toNat_sub]
  simp only [behind]

/-- The power of two at which 64-bit integers end, with its last three digits not shown. -/
theorem toInt?_twoPow63 :
    toInt? (withSign negative (magnitudeChars 0x43E0000000000000)) =
      some (signed negative 9223372036854776000) := by
  have digits : shortest 0x43E0000000000000 = (9223372036854776, 1077) := by decide +kernel
  rw [toInt?_magnitudeChars (by decide), digits]
  rfl

variable (finite : magnitude < infinityBits)

include finite

theorem isSpelling_of_toInt? {i : Int}
    (read : toInt? (withSign negative (magnitudeChars magnitude)) = some i) :
    ∃ n, i = signed negative n ∧ IsSpelling magnitude n := by
  by_cases nonzero : magnitude = 0
  · rw [nonzero, toInt?_zero] at read
    rw [nonzero]
    exact ⟨0, (Option.some.inj read).symm, nearestBits_of_lt (by simp), .inr (dvd_zero 10)⟩
  · rw [toInt?_magnitudeChars nonzero] at read
    split at read
    next => contradiction
    next whole =>
      have power : ((shortest magnitude).2 - unitExponent : Int).toNat =
          (shortest magnitude).2 - unitExponent := Int.toNat_sub _ _
      have places : (-((shortest magnitude).2 - unitExponent : Int)).toNat = 0 := by omega
      have rounded := nearestScaled_shortest finite
      rw [nearestScaled_eq, power, places, pow_zero] at rounded
      refine ⟨_, (Option.some.inj read).symm, rounded, ?_⟩
      by_cases ones : (shortest magnitude).2 = unitExponent
      · obtain ⟨whole, exact⟩ := exists_isWhole finite rounded
        rw [ones, Nat.sub_self, pow_zero, mul_one, exact.shortest_eq finite ones]
        exact .inl exact
      · have some : (shortest magnitude).2 - unitExponent ≠ 0 := by omega
        exact .inr (Dvd.dvd.mul_left (dvd_pow_self 10 some) _)

theorem exists_toInt? (exact : IsWhole magnitude whole) :
    ∃ i, toInt? (withSign negative (magnitudeChars magnitude)) = some i := by
  by_cases nonzero : magnitude = 0
  · rw [nonzero]
    exact ⟨_, toInt?_zero⟩
  · have positive : 0 < whole := by
      refine Nat.pos_of_ne_zero fun none => nonzero (units_strictMono.injective ?_)
      rw [exact, none, Nat.zero_mul]
      rfl
    have ones := exact.unitExponent_le_shortest finite positive
    rw [toInt?_magnitudeChars nonzero, if_neg ones.not_gt]
    exact ⟨_, rfl⟩

end Text

section Spelling

variable (finite : magnitude < infinityBits) (exact : IsWhole magnitude whole)

include finite exact

theorem dist_whole_le (rounded : nearestBits n 1 = magnitude) {significand shift : Nat}
    (low : significand < 2 * hiddenWeight) (high : shift ≤ 971) :
    Nat.dist whole n ≤ Nat.dist (significand * 2 ^ shift) n := by
  have near := dist_units_le finite rounded low high
  rw [exact, Nat.dist_mul_right, Nat.dist_mul_right] at near
  exact Nat.le_of_mul_le_mul_right near (Nat.two_pow_pos _)

theorem eq_whole_of_lt (rounded : nearestBits n 1 = magnitude) (small : n < 2 ^ 53) : n = whole := by
  have near := dist_whole_le finite exact rounded small (Nat.zero_le 971)
  rw [pow_zero, mul_one, Nat.dist_self, Nat.le_zero] at near
  exact (Nat.eq_of_dist_eq_zero near).symm

/-- Where doubles are at most two apart, the shortest digits spell the whole number itself. -/
theorem IsSpelling.eq_of_le (spelling : IsSpelling magnitude n) (small : whole ≤ 2 ^ 54) :
    n = whole := by
  have near {significand shift : Nat} (low : significand < 2 * hiddenWeight) (high : shift ≤ 971) :=
    dist_whole_le finite exact spelling.rounded low high
  rcases spelling.exact with same | ⟨tenth, rfl⟩
  · exact Nat.eq_of_mul_eq_mul_right (Nat.two_pow_pos _) (same.symm.trans exact)
  · rcases Nat.lt_or_ge (10 * tenth) (2 ^ 54) with below | above
    · have even := near (by rw [hiddenWeight]; omega : 5 * tenth < 2 * hiddenWeight)
        (by decide : 1 ≤ 971)
      unfold Nat.dist at even
      omega
    · -- The next double is nearer to what ends in a zero above.
      have least := near (by decide : hiddenWeight < 2 * hiddenWeight) (by decide : 2 ≤ 971)
      have next := near (by decide : hiddenWeight + 1 < 2 * hiddenWeight) (by decide : 2 ≤ 971)
      unfold Nat.dist hiddenWeight at least next
      omega

theorem dist_whole_le_twoPow63 (rounded : nearestBits n 1 = magnitude) :
    Nat.dist whole n ≤ Nat.dist (2 ^ 63) n := by
  have power : 2 ^ 63 = hiddenWeight * 2 ^ 11 := rfl
  rw [power]
  exact dist_whole_le finite exact rounded (by decide) (by decide)

end Spelling

end ScalarLowering.Binary64
