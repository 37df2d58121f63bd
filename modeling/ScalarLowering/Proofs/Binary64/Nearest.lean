import Mathlib.Data.Nat.Dist
import Mathlib.Tactic.Ring
import ScalarLowering.Proofs.Binary64.Magnitudes
import ScalarLowering.Proofs.Binary64.Rounding

/-!
What rounding gives is nearest. A quotient in units lies between two multiples of a power of two whose
significands are representable; the nearer of them is nearer than any other magnitude, and of two
equally near ones the even one is taken. The infinity is given from the midpoint on that lies above the
largest finite magnitude.
-/

namespace ScalarLowering.Binary64

variable {numerator denominator : Nat}

theorem roundHalfEven_near (numerator : Nat) (positive : 0 < denominator) :
    2 * Nat.dist (roundHalfEven numerator denominator * denominator) numerator ≤ denominator ∧
      (2 * Nat.dist (roundHalfEven numerator denominator * denominator) numerator = denominator →
        roundHalfEven numerator denominator % 2 = 0) := by
  have parts := Nat.div_add_mod' numerator denominator
  have rest := Nat.mod_lt numerator positive
  have next := Nat.succ_mul (numerator / denominator) denominator
  rw [Nat.succ_eq_add_one] at next
  unfold roundHalfEven Nat.dist
  dsimp only
  split
  next => omega
  next =>
    split
    next => omega
    next =>
      -- The two neighbours are equally near.
      rcases Nat.mod_two_eq_zero_or_one (numerator / denominator) with even | odd
      · rw [even, Nat.add_zero]
        omega
      · rw [odd]
        omega

/-- Other multiples are no nearer, and if equally near, the given one is even. -/
theorem roundHalfEven_nearest (positive : 0 < denominator) {multiple : Nat}
    (other : multiple ≠ roundHalfEven numerator denominator) :
    Nat.dist (roundHalfEven numerator denominator * denominator) numerator ≤
        Nat.dist (multiple * denominator) numerator ∧
      (Nat.dist (multiple * denominator) numerator =
          Nat.dist (roundHalfEven numerator denominator * denominator) numerator →
        roundHalfEven numerator denominator % 2 = 0) := by
  obtain ⟨near, even⟩ := roundHalfEven_near numerator positive
  have apart : denominator ≤ Nat.dist (multiple * denominator)
      (roundHalfEven numerator denominator * denominator) := by
    rw [Nat.dist_mul_right]
    exact Nat.le_mul_of_pos_left _ (Nat.dist_pos_of_ne other)
  have triangle := Nat.dist.triangle_inequality (multiple * denominator) numerator
    (roundHalfEven numerator denominator * denominator)
  rw [Nat.dist_comm numerator] at triangle
  exact ⟨by omega, fun same => even (by omega)⟩

def inUnits (numerator : Nat) : Nat := numerator * Nat.pow 2 unitExponent

/-- The power of two on whose multiples a quotient is rounded. -/
def shiftOf (numerator denominator : Nat) : Nat := (inUnits numerator / denominator).log2 - 52

def significandOf (numerator denominator : Nat) : Nat :=
  roundHalfEven (inUnits numerator) (denominator * Nat.pow 2 (shiftOf numerator denominator))

/-- The magnitude that a quotient is rounded to if there are as many exponents as it takes. -/
def unboundedBits (numerator denominator : Nat) : Nat :=
  shiftOf numerator denominator * hiddenWeight + significandOf numerator denominator

theorem nearestBits_eq (numerator denominator : Nat) :
    nearestBits numerator denominator =
      if unboundedBits numerator denominator < infinityBits then
        unboundedBits numerator denominator
      else infinityBits := rfl

theorem nearestBits_le (numerator denominator : Nat) :
    nearestBits numerator denominator ≤ infinityBits := by
  rw [nearestBits_eq]
  split
  next below => exact below.le
  next => exact le_rfl

theorem nearestBits_lt_iff :
    nearestBits numerator denominator < infinityBits ↔
      unboundedBits numerator denominator < infinityBits := by
  rw [nearestBits_eq]
  split
  next below => rfl
  next beyond => exact iff_of_false (lt_irrefl _) beyond

theorem nearestBits_eq_of_lt (below : nearestBits numerator denominator < infinityBits) :
    nearestBits numerator denominator = unboundedBits numerator denominator := by
  rw [nearestBits_eq, if_pos (nearestBits_lt_iff.mp below)]

/-- Rounding carries to the next power from the midpoint on. The midpoint itself is rounded up, since
the last significand of a power is odd. -/
theorem significand_lt_iff {significand space scaled : Nat} (present : 0 < space)
    (greatest : significand ≤ 2 * hiddenWeight)
    (near : 2 * Nat.dist (significand * (2 * space)) scaled ≤ 2 * space)
    (even : 2 * Nat.dist (significand * (2 * space)) scaled = 2 * space → significand % 2 = 0) :
    significand < 2 * hiddenWeight ↔ scaled < 4 * (hiddenWeight * space) - space := by
  have full : 2 * hiddenWeight * (2 * space) = 4 * (hiddenWeight * space) := by ring
  have weightEven : hiddenWeight % 2 = 0 := by decide
  unfold Nat.dist at near even
  rcases Nat.lt_or_ge significand (2 * hiddenWeight) with inside | carried
  · have below := Nat.mul_le_mul_right (2 * space) (Nat.succ_le_of_lt inside)
    rw [Nat.succ_mul, full] at below
    by_cases last : significand + 1 = 2 * hiddenWeight
    · omega
    · have further := Nat.mul_le_mul_right (2 * space)
        (by omega : significand + 2 ≤ 2 * hiddenWeight)
      rw [Nat.add_mul, full] at further
      omega
  · obtain rfl : significand = 2 * hiddenWeight := Nat.le_antisymm greatest carried
    rw [full] at near
    omega

section Quotient

variable (numerator : Nat) (positive : 0 < denominator)

include positive

theorem spacing_pos : 0 < denominator * 2 ^ shiftOf numerator denominator :=
  Nat.mul_pos positive (Nat.two_pow_pos _)

theorem shiftOf_bounds :
    (shiftOf numerator denominator = 0 ∨
      hiddenWeight * (denominator * 2 ^ shiftOf numerator denominator) ≤
        inUnits numerator) ∧
    inUnits numerator <
      2 * hiddenWeight * (denominator * 2 ^ shiftOf numerator denominator) := by
  have shift : shiftOf numerator denominator =
      (inUnits numerator / denominator).log2 - 52 := rfl
  generalize shiftOf numerator denominator = power at shift ⊢
  generalize inUnits numerator = units at shift ⊢
  have below : units / denominator < 2 ^ (power + 53) := by
    have log := Nat.lt_log2_self (n := units / denominator)
    exact Nat.lt_of_lt_of_le log (Nat.pow_le_pow_right (by decide) (by omega))
  have high : 2 ^ (power + 53) * denominator = 2 * hiddenWeight * (denominator * 2 ^ power) := by
    have weight : 2 * hiddenWeight = 2 ^ 53 := rfl
    rw [weight, pow_add]
    ring
  refine ⟨?_, ?_⟩
  · by_cases zero : power = 0
    · exact .inl zero
    · have low : 2 ^ (power + 52) * denominator = hiddenWeight * (denominator * 2 ^ power) := by
        have weight : hiddenWeight = 2 ^ 52 := rfl
        rw [weight, pow_add]
        ring
      have log : (units / denominator).log2 = power + 52 := by omega
      have nonzero : units / denominator ≠ 0 := by
        intro none
        rw [none, Nat.log2_zero] at log
        omega
      refine .inr ?_
      rw [← low, ← Nat.le_div_iff_mul_le positive, ← log]
      exact Nat.log2_self_le nonzero
  · rw [← high]
    exact (Nat.div_lt_iff_lt_mul positive).mp below

theorem significandOf_near :
    2 * Nat.dist (significandOf numerator denominator *
        (denominator * 2 ^ shiftOf numerator denominator)) (inUnits numerator) ≤
      denominator * 2 ^ shiftOf numerator denominator ∧
    (2 * Nat.dist (significandOf numerator denominator *
        (denominator * 2 ^ shiftOf numerator denominator)) (inUnits numerator) =
      denominator * 2 ^ shiftOf numerator denominator →
        significandOf numerator denominator % 2 = 0) :=
  roundHalfEven_near _ (spacing_pos numerator positive)

theorem significandOf_bounds :
    (shiftOf numerator denominator = 0 ∨ hiddenWeight ≤ significandOf numerator denominator) ∧
      significandOf numerator denominator ≤ 2 * hiddenWeight := by
  obtain ⟨low, high⟩ := shiftOf_bounds numerator positive
  obtain ⟨near, _⟩ := significandOf_near numerator positive
  have spacing := spacing_pos numerator positive
  generalize denominator * 2 ^ shiftOf numerator denominator = space at low high near spacing
  unfold Nat.dist at near
  refine ⟨low.imp_right fun least => Nat.not_lt.mp fun small => ?_,
    Nat.not_lt.mp fun large => ?_⟩
  · have := Nat.mul_le_mul_right space small
    rw [Nat.succ_mul] at this
    omega
  · have := Nat.mul_le_mul_right space large
    rw [Nat.succ_mul] at this
    omega

theorem units_unboundedBits :
    units (unboundedBits numerator denominator) * denominator =
      significandOf numerator denominator * (denominator * 2 ^ shiftOf numerator denominator) := by
  obtain ⟨low, high⟩ := significandOf_bounds numerator positive
  rw [unboundedBits, units_significand low high]
  ring

/-- No magnitude is nearer to a quotient than the one that it is rounded to, and if another one is
equally near, that one is even. -/
theorem unboundedBits_nearest {magnitude : Nat}
    (other : magnitude ≠ unboundedBits numerator denominator) :
    Nat.dist (units (unboundedBits numerator denominator) * denominator)
        (inUnits numerator) ≤
      Nat.dist (units magnitude * denominator) (inUnits numerator) ∧
    (Nat.dist (units magnitude * denominator) (inUnits numerator) =
        Nat.dist (units (unboundedBits numerator denominator) * denominator)
          (inUnits numerator) →
      unboundedBits numerator denominator % 2 = 0) := by
  have even : unboundedBits numerator denominator % 2 = significandOf numerator denominator % 2 := by
    rw [unboundedBits, hiddenWeight]
    omega
  have whole := units_unboundedBits numerator positive
  rw [whole, even]
  have onGrid {multiple : Nat} (distinct : multiple ≠ significandOf numerator denominator) :=
    roundHalfEven_nearest (spacing_pos numerator positive) distinct
  rcases units_grid magnitude (shiftOf numerator denominator) with
    ⟨multiple, same⟩ | ⟨coarse, small⟩
  · have place : units magnitude * denominator =
        multiple * (denominator * 2 ^ shiftOf numerator denominator) := by
      rw [same]
      ring
    have distinct : multiple ≠ significandOf numerator denominator := by
      rintro rfl
      exact other (units_strictMono.injective
        (Nat.eq_of_mul_eq_mul_right positive (place.trans whole.symm)))
    rw [place]
    exact onGrid distinct
  · -- Between the two lies the least normal number of the power.
    have least := (shiftOf_bounds numerator positive).1.resolve_left coarse
    have below : units magnitude * denominator <
        hiddenWeight * (denominator * 2 ^ shiftOf numerator denominator) := by
      rw [Nat.mul_comm denominator, ← Nat.mul_assoc]
      exact Nat.mul_lt_mul_of_pos_right small positive
    have near : Nat.dist (significandOf numerator denominator *
          (denominator * 2 ^ shiftOf numerator denominator)) (inUnits numerator) ≤
        Nat.dist (hiddenWeight * (denominator * 2 ^ shiftOf numerator denominator))
          (inUnits numerator) := by
      by_cases same : hiddenWeight = significandOf numerator denominator
      · rw [← same]
      · exact (onGrid same).1
    unfold Nat.dist at near ⊢
    omega

/-- The magnitudes from a power of two on are those of the quotients from the midpoint on that lies
below the power. -/
theorem unboundedBits_lt_iff (top : Nat) :
    unboundedBits numerator denominator < (top + 3) * hiddenWeight ↔
      inUnits numerator < (4 * hiddenWeight - 1) * (denominator * 2 ^ top) := by
  obtain ⟨low, high⟩ := shiftOf_bounds numerator positive
  obtain ⟨least, greatest⟩ := significandOf_bounds numerator positive
  obtain ⟨near, even⟩ := significandOf_near numerator positive
  have present : 0 < hiddenWeight := by decide
  have half : 0 < denominator * 2 ^ top := Nat.mul_pos positive (Nat.two_pow_pos top)
  have midpoint : (4 * hiddenWeight - 1) * (denominator * 2 ^ top) =
      4 * (hiddenWeight * (denominator * 2 ^ top)) - denominator * 2 ^ top := by
    rw [Nat.sub_mul, Nat.mul_assoc, Nat.one_mul]
  rw [unboundedBits, midpoint, Nat.add_mul]
  generalize shiftOf numerator denominator = shift at low high least near even ⊢
  generalize significandOf numerator denominator = significand at least greatest near even ⊢
  rcases Nat.lt_trichotomy shift (top + 1) with fine | rfl | coarse
  · have field : shift * hiddenWeight ≤ top * hiddenWeight :=
      Nat.mul_le_mul_right hiddenWeight (Nat.le_of_lt_succ fine)
    have spacing : denominator * 2 ^ shift ≤ denominator * 2 ^ top :=
      Nat.mul_le_mul_left _ (Nat.pow_le_pow_right (by decide) (Nat.le_of_lt_succ fine))
    have bound := Nat.mul_le_mul_left (2 * hiddenWeight) spacing
    rw [Nat.mul_assoc 2 hiddenWeight (denominator * 2 ^ top)] at bound
    have more : denominator * 2 ^ top ≤ hiddenWeight * (denominator * 2 ^ top) :=
      Nat.le_mul_of_pos_left _ present
    omega
  · -- At the last power the spacing is twice that of the midpoint.
    have double : denominator * 2 ^ (top + 1) = 2 * (denominator * 2 ^ top) := by
      rw [pow_succ]
      ring
    have normal : hiddenWeight ≤ significand := least.resolve_left (Nat.succ_ne_zero top)
    have field : (top + 1) * hiddenWeight = top * hiddenWeight + hiddenWeight :=
      Nat.succ_mul top hiddenWeight
    rw [double] at near even
    rw [← significand_lt_iff half greatest near even]
    omega
  · have field : (top + 2) * hiddenWeight ≤ shift * hiddenWeight :=
      Nat.mul_le_mul_right hiddenWeight coarse
    have spacing : denominator * 2 ^ (top + 2) ≤ denominator * 2 ^ shift :=
      Nat.mul_le_mul_left _ (Nat.pow_le_pow_right (by decide) coarse)
    have bound := Nat.mul_le_mul_left hiddenWeight spacing
    have quadruple : hiddenWeight * (denominator * 2 ^ (top + 2)) =
        4 * (hiddenWeight * (denominator * 2 ^ top)) := by
      rw [pow_add]
      ring
    rw [Nat.add_mul] at field
    omega

end Quotient

end ScalarLowering.Binary64
