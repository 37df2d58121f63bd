import ScalarLowering.Proofs.Binary64.Shortest
import ScalarLowering.Proofs.Lowering.ExactIntegers
import ScalarLowering.Proofs.Lowering.NearestDoubles

/-!
Doubles as integers. A double is lowered under an integer type only if it is whole and in range, but
through its shortest digits. Those are the integer itself as long as doubles are dense, which they are
throughout the range of 32 bits; beyond, zeros stand for the digits that need not be shown, and the
constant is another integer, one that is rounded to the same double.
-/

namespace ScalarLowering

namespace Binary64

open Numeral

variable {x : Binary64} {i : Int} {n whole : Nat}

theorem chars_of_finite (finite : x.IsFinite) :
    x.chars = withSign x.isNegative (magnitudeChars x.magnitudeBits) := by
  have number : x.isNaN = false := decide_eq_false finite.le.not_gt
  have bounded : x.isInfinite = false := decide_eq_false finite.ne
  simp only [chars, number, bounded, Bool.false_eq_true, if_false]

theorem chars_of_not_finite (beyond : ¬ x.IsFinite) :
    x.chars ∈ [['N', 'a', 'N'], ['i', 'n', 'f'], ['-', 'i', 'n', 'f']] := by
  rw [chars]
  split
  next => exact List.mem_cons_self
  next number =>
    have infinite : x.isInfinite = true := by
      simp only [isNaN, decide_eq_true_eq] at number
      exact decide_eq_true (Nat.le_antisymm (Nat.not_lt.mp number) (Nat.not_lt.mp beyond))
    rw [if_pos infinite]
    cases x.isNegative <;> simp [withSign]

/-- What the three names are not read as is read from the texts of finite doubles only. -/
theorem isFinite_of_read {α : Type} {reader : List Char → Option α} {result : α}
    (nan : reader ['N', 'a', 'N'] = none) (infinity : reader ['i', 'n', 'f'] = none)
    (negative : reader ['-', 'i', 'n', 'f'] = none) (read : reader x.chars = some result) :
    x.IsFinite := by
  by_contra beyond
  have names := chars_of_not_finite beyond
  simp only [List.mem_cons, List.not_mem_nil, or_false] at names
  have unread : reader x.chars = none := by
    rcases names with name | name | name
    · rw [name, nan]
    · rw [name, infinity]
    · rw [name, negative]
  rw [unread] at read
  contradiction

theorem isFinite_of_toInt? (read : toInt? x.chars = some i) : x.IsFinite :=
  isFinite_of_read rfl rfl rfl read

theorem magnitudeNumber_eq_iff {magnitude : Nat} :
    magnitudeNumber magnitude = whole ↔ IsWhole magnitude whole := by
  have unit : (2 : ℚ) ^ unitExponent ≠ 0 := by positivity
  rw [magnitudeNumber, div_eq_iff unit, IsWhole, ← Nat.cast_ofNat, ← Nat.cast_pow, ← Nat.cast_mul,
    Nat.cast_inj]

theorem number_eq_signed (exact : IsWhole x.magnitudeBits whole) :
    x.number = (signed x.isNegative whole : Int) := by
  rw [number, magnitudeNumber_eq_iff.mpr exact, signed]
  cases x.isNegative <;> simp

theorem isWhole_natAbs (same : x.number = i) : IsWhole x.magnitudeBits i.natAbs := by
  rw [← magnitudeNumber_eq_iff, ← abs_number, same, Nat.cast_natAbs, Int.cast_abs]

theorem abs_number_eq_whole (exact : IsWhole x.magnitudeBits whole) : |x.number| = whole := by
  rw [abs_number, magnitudeNumber_eq_iff.mpr exact]

theorem exists_of_toInt? (read : toInt? x.chars = some i) : ∃ n whole, x.IsFinite ∧
    i = signed x.isNegative n ∧ IsSpelling x.magnitudeBits n ∧ IsWhole x.magnitudeBits whole := by
  have finite := isFinite_of_toInt? read
  rw [chars_of_finite finite] at read
  obtain ⟨n, same, spelling⟩ := isSpelling_of_toInt? finite read
  obtain ⟨whole, exact⟩ := exists_isWhole finite spelling.rounded
  exact ⟨n, whole, finite, same, spelling, exact⟩

/-- An integer is read from the text of a double if and only if the double is whole. -/
theorem exists_toInt?_iff :
    (∃ i, toInt? x.chars = some i) ↔ x.IsFinite ∧ ∃ whole : Int, x.number = whole := by
  constructor
  · rintro ⟨i, read⟩
    obtain ⟨_, whole, finite, _, _, exact⟩ := exists_of_toInt? read
    exact ⟨finite, _, number_eq_signed exact⟩
  · rintro ⟨finite, whole, same⟩
    rw [chars_of_finite finite]
    exact exists_toInt? finite (isWhole_natAbs same)

section Reading

variable (read : toInt? x.chars = some i)

include read

theorem number_eq_of_le (small : |x.number| ≤ 2 ^ 54) : x.number = i := by
  obtain ⟨n, whole, finite, rfl, spelling, exact⟩ := exists_of_toInt? read
  rw [abs_number_eq_whole exact] at small
  rw [number_eq_signed exact, spelling.eq_of_le finite exact (by exact_mod_cast small)]

theorem number_eq_of_natAbs_lt (small : i.natAbs < 2 ^ 53) : x.number = i := by
  obtain ⟨n, whole, finite, rfl, spelling, exact⟩ := exists_of_toInt? read
  rw [natAbs_signed] at small
  rw [number_eq_signed exact, eq_whole_of_lt finite exact spelling.rounded small]

/-- The integer that is read is rounded to the double, but for the negative zero. -/
theorem isNearest_of_toInt? : IsNearest i x ∨ i = 0 ∧ x.number = 0 := by
  obtain ⟨n, whole, finite, rfl, spelling, exact⟩ := exists_of_toInt? read
  by_cases zero : n = 0
  · have small : n < 2 ^ 53 := by omega
    obtain rfl := eq_whole_of_lt finite exact spelling.rounded small
    rw [number_eq_signed exact, zero]
    cases x.isNegative <;> exact .inr ⟨rfl, rfl⟩
  · have sign : decide ((signed x.isNegative n : ℚ) < 0) = x.isNegative := by
      have positive := Nat.pos_of_ne_zero zero
      cases x.isNegative <;> simp [signed, positive]
    have magnitude : |(signed x.isNegative n : ℚ)| = n / (1 : Nat) := by
      cases x.isNegative <;> simp [signed]
    have nearest := isNearest_ofMagnitude n Nat.one_pos magnitude
    rw [spelling.rounded, sign, ofMagnitude_magnitudeBits] at nearest
    exact .inl nearest

theorem exists_int64_iff_abs_number_lt : (∃ word : Int64, word.toInt = i) ↔ |x.number| < 2 ^ 63 := by
  obtain ⟨n, whole, finite, same, spelling, exact⟩ := exists_of_toInt? read
  have limit : |x.number| < 2 ^ 63 ↔ whole < 2 ^ 63 := by
    rw [abs_number_eq_whole exact]
    exact_mod_cast Iff.rfl
  have near := dist_whole_le_twoPow63 finite exact spelling.rounded
  unfold Nat.dist at near
  rw [limit, Word.exists_int64_iff]
  rcases Nat.lt_trichotomy whole (2 ^ 63) with below | edge | above
  · have small : n < 2 ^ 63 := by omega
    refine iff_of_true ?_ below
    rw [same, signed]
    split <;> omega
  · -- Of the power itself the last three digits are not shown.
    have bits : x.magnitudeBits = 0x43E0000000000000 := by
      refine units_strictMono.injective ?_
      rw [exact, edge]
      decide +kernel
    rw [chars_of_finite finite, bits, toInt?_twoPow63, Option.some_inj] at read
    refine iff_of_false ?_ edge.not_lt
    rw [← read, signed]
    split <;> omega
  · have large : 2 ^ 63 < n := by omega
    refine iff_of_false ?_ above.not_gt
    rw [same, signed]
    split <;> omega

end Reading

/-- Integers of so few bits are read from the text of those doubles only that they are. -/
theorem toInt?_chars_iff (small : i.natAbs < 2 ^ 53) :
    toInt? x.chars = some i ↔ x.IsFinite ∧ x.number = i := by
  constructor
  · intro read
    obtain ⟨finite, _⟩ := exists_toInt?_iff.mp ⟨i, read⟩
    exact ⟨finite, number_eq_of_natAbs_lt read small⟩
  · rintro ⟨finite, same⟩
    obtain ⟨j, read⟩ := exists_toInt?_iff.mpr ⟨finite, i, same⟩
    have bounded : |x.number| ≤ 2 ^ 54 := by
      rw [same, ← Int.cast_abs, Int.abs_eq_natAbs]
      exact_mod_cast small.le.trans (by decide : 2 ^ 53 ≤ 2 ^ 54)
    have whole := number_eq_of_le read bounded
    rw [same, Int.cast_inj] at whole
    rw [read, whole]

end Binary64

namespace Literal

open Binary64 Numeral

theorem approximate_ne_null (x : Binary64) : Literal.approximate x ≠ .null := nofun

theorem lower_bigInt_of_some {x : Binary64} {word : Int64} (fits : readInt64? x.chars = some word) :
    (Literal.approximate x).lower .bigInt = .ok (.bigInt word) :=
  (lower_eq_ok_iff .bigInt (approximate_ne_null x) (.bigInt word)).mpr
    (readInt64?_eq_some_iff.mp fits)

theorem lower_bigInt_of_none {x : Binary64} (refused : readInt64? x.chars = none) :
    (Literal.approximate x).lower .bigInt = .error (.invalidLiteral .bigInt x.text) := by
  rw [lower_bigInt, read_of_present (approximate_ne_null x), chars, refused]
  rfl

/-- A double is lowered under BIGINT if it is whole and of fewer than 64 bits, and is refused otherwise.
The constant is an integer that is rounded to the double, and up to the fifty-fourth power of two it is
the double itself. -/
theorem lower_bigInt_approximate (x : Binary64) :
    (∃ word, (Literal.approximate x).lower .bigInt = .ok (.bigInt word) ∧
      x.IsFinite ∧ (∃ whole : Int, x.number = whole) ∧ |x.number| < 2 ^ 63 ∧
      (IsNearest word.toInt x ∨ word = 0 ∧ x.number = 0) ∧
      (|x.number| ≤ 2 ^ 54 → x.number = word.toInt)) ∨
    ((Literal.approximate x).lower .bigInt = .error (.invalidLiteral .bigInt x.text) ∧
      ¬ (x.IsFinite ∧ (∃ whole : Int, x.number = whole) ∧ |x.number| < 2 ^ 63)) := by
  cases fits : readInt64? x.chars with
  | some word =>
      left
      have read := readInt64?_eq_some_iff.mp fits
      obtain ⟨finite, whole⟩ := exists_toInt?_iff.mp ⟨_, read⟩
      refine ⟨word, lower_bigInt_of_some fits, finite, whole,
        (exists_int64_iff_abs_number_lt read).mp ⟨word, rfl⟩, ?_, number_eq_of_le read⟩
      refine (isNearest_of_toInt? read).imp_right (And.imp_left fun zero => ?_)
      exact Int64.toInt_inj.mp zero
  | none =>
      right
      refine ⟨lower_bigInt_of_none fits, ?_⟩
      rintro ⟨finite, whole, small⟩
      obtain ⟨i, read⟩ := exists_toInt?_iff.mpr ⟨finite, whole⟩
      obtain ⟨word, rfl⟩ := (exists_int64_iff_abs_number_lt read).mpr small
      rw [readInt64?_eq_some_iff.mpr read] at fits
      contradiction

/-- A whole double is not always kept under BIGINT: the sixtieth power of two is not. -/
theorem lower_bigInt_approximate_not_kept :
    ¬ ∀ (x : Binary64) (word : Int64),
      (Literal.approximate x).lower .bigInt = .ok (.bigInt word) →
        x.IsFinite ∧ x.number = word.toInt := by
  intro kept
  have finite : IsFinite ⟨0x43B0000000000000⟩ := by decide
  have exact : IsWhole (magnitudeBits ⟨0x43B0000000000000⟩) (2 ^ 60) := by decide +kernel
  have digits : shortest (magnitudeBits ⟨0x43B0000000000000⟩) = (1152921504606847, 1077) := by
    decide +kernel
  have shown : toInt? (Binary64.chars ⟨0x43B0000000000000⟩) =
      some (Int64.toInt 1152921504606847000) := by
    rw [chars_of_finite finite, toInt?_magnitudeChars (by decide), digits]
    rfl
  have lowered : (Literal.approximate ⟨0x43B0000000000000⟩).lower .bigInt =
      .ok (.bigInt 1152921504606847000) :=
    lower_bigInt_of_some (readInt64?_eq_some_iff.mpr shown)
  obtain ⟨_, same⟩ := kept _ _ lowered
  rw [number_eq_signed exact, Int.cast_inj] at same
  exact absurd same (by decide)

/-- A double is lowered under a type with constants of 32 bits if it is whole and in their range, and
then as it is; any other is refused. -/
theorem lower_narrow_approximate (x : Binary64) {type : SqlType} (narrow : type.IntegerBits 32) :
    (∀ n : Int, (∃ word : Int32, word.toInt = n ∧
        (Literal.approximate x).lower type = .ok (.integer word)) ↔
      x.IsFinite ∧ x.number = n ∧ -2 ^ 31 ≤ n ∧ n ≤ 2 ^ 31 - 1) ∧
    ((¬ ∃ n : Int, x.IsFinite ∧ x.number = n ∧ -2 ^ 31 ≤ n ∧ n ≤ 2 ^ 31 - 1) →
      (Literal.approximate x).lower type = .error (.invalidLiteral type.tag x.text)) := by
  have present := approximate_ne_null x
  have shown {n : Int} : x.IsFinite ∧ x.number = n ∧ -2 ^ 31 ≤ n ∧ n ≤ 2 ^ 31 - 1 ↔
      toInt? (Literal.approximate x).chars = some n ∧ Word.Fits 32 n := by
    have range : -2 ^ 31 ≤ n ∧ n ≤ 2 ^ 31 - 1 ↔ Word.Fits 32 n := by
      unfold Word.Fits
      omega
    rw [← and_assoc, ← range]
    exact and_congr_left fun _ => (Binary64.toInt?_chars_iff (by omega)).symm
  simp only [shown]
  refine ⟨fun n => ⟨?_, fun read => ?_⟩, lower_eq_invalid narrow present⟩
  · rintro ⟨word, rfl, lowered⟩
    exact (exists_lower_iff narrow present).mp ⟨_, .integer word, lowered⟩
  · obtain ⟨datum, stored, lowered⟩ := (exists_lower_iff narrow present).mpr read
    cases stored
    exact ⟨_, rfl, lowered⟩

/-- The greatest integer of 32 bits is kept even under TINYINT, the next one is refused under INTEGER,
and the negative zero is zero. -/
theorem lower_narrow_approximate_greatest :
    (∃ word : Int32, word.toInt = 2147483647 ∧
      (Literal.approximate ⟨0x41DFFFFFFFC00000⟩).lower .tinyInt = .ok (.integer word)) ∧
    (Literal.approximate ⟨0x41E0000000000000⟩).lower .integer =
      .error (.invalidLiteral .integer (Binary64.text ⟨0x41E0000000000000⟩)) ∧
    (∃ word : Int32, word.toInt = 0 ∧
      (Literal.approximate ⟨0x8000000000000000⟩).lower .smallInt = .ok (.integer word)) := by
  have greatest : number ⟨0x41DFFFFFFFC00000⟩ = (2147483647 : Int) :=
    number_eq_signed (by decide +kernel : IsWhole (magnitudeBits ⟨0x41DFFFFFFFC00000⟩) 2147483647)
  have next : number ⟨0x41E0000000000000⟩ = (2147483648 : Int) :=
    number_eq_signed (by decide +kernel : IsWhole (magnitudeBits ⟨0x41E0000000000000⟩) 2147483648)
  have zero : number ⟨0x8000000000000000⟩ = (0 : Int) :=
    number_eq_signed (by decide +kernel : IsWhole (magnitudeBits ⟨0x8000000000000000⟩) 0)
  refine ⟨((lower_narrow_approximate _ .tinyInt).1 _).mpr ⟨by decide, greatest, by decide⟩,
    (lower_narrow_approximate _ .integer).2 ?_,
    ((lower_narrow_approximate _ .smallInt).1 _).mpr ⟨by decide, zero, by decide⟩⟩
  rintro ⟨n, _, same, _, high⟩
  rw [next, Int.cast_inj] at same
  omega

end Literal
end ScalarLowering
