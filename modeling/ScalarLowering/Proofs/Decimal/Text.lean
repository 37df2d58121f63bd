import ScalarLowering.Decimal.Text
import ScalarLowering.Proofs.Text.Numerals

/-!
Which texts are read as decimals, and which decimals they are. Of the decimals, those with positional
texts are read back from them, with their digits counted anew; scientific texts are not read.
-/

namespace ScalarLowering.Decimal

open Numeral

section Parts

variable {whole tail fraction : List Char} (tailed : Tail tail fraction)
  (digits : ∀ c ∈ whole, c.isDigit)

theorem tail_fractionPart (body : List Char) :
    Tail (body.dropWhile (· != '.')) (fractionPart body) := by
  induction body with
  | nil => exact .absent
  | cons c rest induction =>
      by_cases point : c = '.'
      · subst point
        exact .point rest
      · have skipped : (c :: rest).dropWhile (· != '.') = rest.dropWhile (· != '.') :=
          List.dropWhile_cons_of_pos (by simpa using point)
        rw [fractionPart, skipped]
        exact induction

theorem ne_point (c : Char) (digit : c.isDigit) : (c != '.') = true := by
  rw [bne_iff_ne]
  intro point
  subst point
  contradiction

include tailed digits

theorem wholePart_append : wholePart (whole ++ tail) = whole := by
  rw [wholePart, List.takeWhile_append_of_pos fun c member => ne_point c (digits c member)]
  cases tailed with
  | absent => exact List.append_nil whole
  | point => exact List.append_nil whole

theorem fractionPart_append : fractionPart (whole ++ tail) = fraction := by
  rw [fractionPart, List.dropWhile_append_of_pos fun c member => ne_point c (digits c member)]
  cases tailed with
  | absent => rfl
  | point => rfl

end Parts

theorem ofChars?_of_pointed {text whole fraction : List Char} {negative : Bool}
    (pointed : Pointed text negative whole fraction) :
    ofChars? text = some (ofUnscaled (signed negative (value (whole ++ fraction)))
      (Int32.ofNat fraction.length)) := by
  obtain ⟨⟨sign, tail, signed, tailed, rfl⟩, digits, nonempty⟩ := pointed
  have wholeDigits : ∀ c ∈ whole, c.isDigit := fun c member =>
    digits c (List.mem_append_left fraction member)
  have magnitude : toNat? (whole ++ fraction) = some (value (whole ++ fraction)) :=
    toNat?_eq_some_iff.mpr ⟨⟨nonempty, digits⟩, rfl⟩
  have unsigned := splitSign_unsigned tailed digits nonempty []
  rw [List.append_nil] at unsigned
  simp only [ofChars?, splitSign_append signed unsigned,
    wholePart_append tailed wholeDigits, fractionPart_append tailed wholeDigits, magnitude,
    Option.map_some]

theorem ofChars?_eq_some_iff {text : List Char} {d : Decimal} :
    ofChars? text = some d ↔ ∃ negative whole fraction, Pointed text negative whole fraction ∧
      ofUnscaled (signed negative (value (whole ++ fraction))) (Int32.ofNat fraction.length) =
        d := by
  constructor
  · intro read
    obtain ⟨magnitude, counted, same⟩ := Option.map_eq_some_iff.mp read
    obtain ⟨⟨nonempty, digits⟩, rfl⟩ := toNat?_eq_some_iff.mp counted
    obtain ⟨sign, signed, parted⟩ := splitSign_sign text
    have body : wholePart (splitSign text).2 ++ (splitSign text).2.dropWhile (· != '.') =
        (splitSign text).2 := List.takeWhile_append_dropWhile
    refine ⟨_, wholePart (splitSign text).2, fractionPart (splitSign text).2,
      ⟨⟨sign, _, signed, tail_fractionPart _, ?_⟩, digits, nonempty⟩, same⟩
    rw [body]
    exact parted
  · intro numeral
    rcases numeral with ⟨negative, whole, fraction, pointed, same⟩
    rw [ofChars?_of_pointed pointed, same]

/-- The count of digits is exact as long as it has 32 bits. -/
theorem toNat_digitCount {i : Int} (counted : (Numeral.digits i.natAbs).length < 2 ^ 32) :
    (digitCount i).toNat = (Numeral.digits i.natAbs).length :=
  UInt32.toNat_ofNat_of_lt' counted

theorem scale_of_isPositional {d : Decimal} (positional : d.isPositional) : 0 ≤ d.scale.toInt := by
  simp only [isPositional, Bool.or_eq_true, Bool.and_eq_true, decide_eq_true_eq] at positional
  omega

/-- An exponent is announced by a letter, which no numeral with a point or none has. -/
theorem exponent_mem_chars {d : Decimal} (other : ¬ d.isPositional) : 'E' ∈ d.chars := by
  rw [chars, if_neg other, withSign, scientific]
  split <;> simp

/-- A decimal is read back from its text if that is positional, and then without its precision. -/
theorem ofChars?_chars (d : Decimal) :
    ofChars? d.chars = if d.isPositional then some (ofUnscaled d.unscaled d.scale) else none := by
  by_cases positional : d.isPositional
  · obtain ⟨whole, fraction, pointed, counted, places⟩ :=
      pointed_withPoint (d.unscaled < 0) d.unscaled.natAbs d.scale.toInt.toNat
    have scale : Int32.ofNat d.scale.toInt.toNat = d.scale := by
      rw [← Int32.ofInt_eq_ofNat, Int.toNat_of_nonneg (scale_of_isPositional positional),
        Int32.ofInt_toInt]
    rw [chars, if_pos positional, if_pos positional, digits, ofChars?_of_pointed pointed, counted,
      places, signed_natAbs, scale]
  · rw [if_neg positional, Option.eq_none_iff_forall_ne_some]
    intro read found
    obtain ⟨negative, whole, fraction, pointed, _⟩ := ofChars?_eq_some_iff.mp found
    exact absurd (pointed.isDigit_or_mem (exponent_mem_chars positional)) (by decide)

end ScalarLowering.Decimal
