import ScalarLowering.Proofs.Decimal.Text

/-!
Which texts are decimals, and which decimals they are. A text is a decimal if it is a numeral with a
point or none, and comes back unchanged otherwise. All digits of the numeral are the unscaled integer,
those behind the point are counted by the scale, and those of the integer, without leading zeros, by
the precision. The counts have 32 bits, which suffices for texts of fewer than `2 ^ 31` bytes.
-/

namespace ScalarLowering

theorem length_le_utf8ByteSize (text : String) : text.length ≤ text.utf8ByteSize := by
  induction text using String.push_induction with
  | empty => exact Nat.le_refl 0
  | push front c induction =>
      have byte := c.utf8Size_pos
      rw [String.length_push, String.utf8ByteSize_push]
      omega

namespace Numeral

theorem value_singleton_le {c : Char} (digit : c.isDigit) : value [c] ≤ 9 := by
  obtain ⟨low, high⟩ := Char.isDigit_iff_toNat.mp digit
  have zero : '0'.toNat = 48 := rfl
  have nine : '9'.toNat = 57 := rfl
  rw [value, Nat.ofDigitChars_cons, Nat.ofDigitChars_nil]
  omega

theorem value_lt_pow {spelling : List Char} (digits : ∀ c ∈ spelling, c.isDigit) :
    value spelling < 10 ^ spelling.length := by
  induction spelling with
  | nil => exact Nat.one_pos
  | cons c rest induction =>
      have below := induction fun d member => digits d (List.mem_cons_of_mem c member)
      have leading := Nat.mul_le_mul_left (10 ^ rest.length)
        (value_singleton_le (digits c List.mem_cons_self))
      have parts : value (c :: rest) = 10 ^ rest.length * value [c] + value rest :=
        value_append [c] rest
      rw [parts, List.length_cons, pow_succ]
      omega

/-- Leading zeros apart, the digits of a number are those that it is spelt with. -/
theorem length_digits_value_le {spelling : List Char} (digits : ∀ c ∈ spelling, c.isDigit)
    (nonempty : spelling ≠ []) : (Numeral.digits (value spelling)).length ≤ spelling.length :=
  (length_digits_le_iff (List.length_pos_iff.mpr nonempty)).mpr (value_lt_pow digits)

theorem Pointed.length_le_countP {text whole fraction : List Char} {negative : Bool}
    (pointed : Pointed text negative whole fraction) :
    (whole ++ fraction).length ≤ text.countP Char.isDigit := by
  obtain ⟨⟨sign, tail, _, tailed, rfl⟩, digits, _⟩ := pointed
  have behind : fraction.countP Char.isDigit ≤ tail.countP Char.isDigit := by
    cases tailed with
    | absent => exact Nat.le_refl _
    | point => exact (List.sublist_cons_self _ _).countP_le
  rw [← List.countP_eq_length.mpr digits]
  simp only [List.countP_append]
  omega

theorem Pointed.length_le {text whole fraction : List Char} {negative : Bool}
    (pointed : Pointed text negative whole fraction) : (whole ++ fraction).length ≤ text.length :=
  pointed.length_le_countP.trans List.countP_le_length

end Numeral

namespace Decimal

open Numeral

/-- The number of digits that an integer has without leading zeros. Zero has one. -/
structure HasDigits (i : Int) (count : Nat) : Prop where
  zero : i = 0 → count = 1
  bounds : i ≠ 0 → 10 ^ (count - 1) ≤ i.natAbs ∧ i.natAbs < 10 ^ count

theorem hasDigits_length (i : Int) : HasDigits i (Numeral.digits i.natAbs).length where
  zero := by
    rintro rfl
    rfl
  bounds nonzero := ⟨pow_length_le (Int.natAbs_pos.mpr nonzero), lt_pow_length i.natAbs⟩

variable {text : String} {d : Decimal}

theorem parse_eq_ok_iff : parse text = .ok d ↔ ofChars? text.toList = some d := by
  unfold parse
  cases ofChars? text.toList with
  | none => exact iff_of_false nofun nofun
  | some read => rw [Except.ok.injEq, Option.some.injEq]

theorem parse_eq_error_iff : parse text = .error ⟨text⟩ ↔ ofChars? text.toList = none := by
  unfold parse
  cases ofChars? text.toList with
  | none => exact iff_of_true rfl rfl
  | some read => exact iff_of_false nofun nofun

theorem exists_parse_iff : (∃ d, parse text = .ok d) ↔
    ∃ negative whole fraction, Pointed text.toList negative whole fraction := by
  simp only [parse_eq_ok_iff, ofChars?_eq_some_iff]
  constructor
  · rintro ⟨_, negative, whole, fraction, pointed, _⟩
    exact ⟨negative, whole, fraction, pointed⟩
  · rintro ⟨negative, whole, fraction, pointed⟩
    exact ⟨_, negative, whole, fraction, pointed, rfl⟩

/-- A text is a decimal if and only if it is a numeral with a point or none, which it then is with all
digits counted, and comes back unchanged otherwise. -/
theorem parse_accepts_exactly (text : String) :
    ((∃ d, parse text = .ok d) ↔
      ∃ negative whole fraction, Pointed text.toList negative whole fraction) ∧
    ((¬ ∃ negative whole fraction, Pointed text.toList negative whole fraction) →
      parse text = .error ⟨text⟩) ∧
    (text.utf8ByteSize < 2 ^ 31 → ∀ d negative whole fraction, parse text = .ok d →
      Pointed text.toList negative whole fraction →
        d.unscaled = signed negative (value (whole ++ fraction)) ∧
        d.scale.toInt = fraction.length ∧
        d.precision.toNat = (Numeral.digits d.unscaled.natAbs).length ∧
        HasDigits d.unscaled d.precision.toNat) := by
  refine ⟨exists_parse_iff, fun other => ?_, ?_⟩
  · rw [← exists_parse_iff] at other
    rw [parse_eq_error_iff, Option.eq_none_iff_forall_ne_some]
    exact fun d read => other ⟨d, parse_eq_ok_iff.mpr read⟩
  · intro short d negative whole fraction parsed pointed
    have read := ofChars?_of_pointed pointed
    rw [parse_eq_ok_iff.mp parsed] at read
    cases read
    have within : (whole ++ fraction).length < 2 ^ 31 := by
      have characters := length_le_utf8ByteSize text
      rw [← String.length_toList] at characters
      exact pointed.length_le.trans_lt (characters.trans_lt short)
    have places : fraction.length < 2 ^ 31 := by
      rw [List.length_append] at within
      omega
    have counted : (Numeral.digits
        (signed negative (value (whole ++ fraction))).natAbs).length < 2 ^ 32 := by
      have digits := length_digits_value_le pointed.digits pointed.nonempty
      rw [natAbs_signed]
      omega
    have precision := toNat_digitCount counted
    refine ⟨rfl, Int32.toInt_ofNat_of_lt places, precision, ?_⟩
    rw [ofUnscaled, precision]
    exact hasDigits_length _

/-- Leading zeros do not count for the precision, and digits of other scripts are not digits. -/
theorem parse_accepts_exactly_leadingZeros :
    (∃ d, parse "-00.750" = .ok d ∧ d.unscaled = -750 ∧ d.scale.toInt = 3 ∧
      d.precision.toNat = 3) ∧ parse "٣" = .error ⟨"٣"⟩ := by
  have pointed : Pointed "-00.750".toList true ['0', '0'] ['7', '5', '0'] :=
    ⟨⟨['-'], ['.', '7', '5', '0'], .minus, .point _, rfl⟩, List.all_eq_true.mp rfl,
      List.cons_ne_nil _ _⟩
  have other : ¬ ∃ negative whole fraction, Pointed "٣".toList negative whole fraction := by
    rintro ⟨_, _, _, numeral⟩
    have member : '٣' ∈ "٣".toList := List.mem_singleton.mpr rfl
    exact absurd (numeral.isDigit_or_mem member) (by decide)
  obtain ⟨accepted, _, counted⟩ := parse_accepts_exactly "-00.750"
  obtain ⟨_, refused, _⟩ := parse_accepts_exactly "٣"
  obtain ⟨d, parsed⟩ := accepted.mpr ⟨_, _, _, pointed⟩
  obtain ⟨unscaled, scale, precision, _⟩ := counted (by decide) d _ _ _ parsed pointed
  refine ⟨⟨d, parsed, unscaled, scale, ?_⟩, refused other⟩
  rw [precision, unscaled]
  rfl

end Decimal
end ScalarLowering
