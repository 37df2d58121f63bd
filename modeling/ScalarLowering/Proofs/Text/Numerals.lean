import Mathlib.Tactic.Ring
import ScalarLowering.Text.Numeral
import ScalarLowering.Text.Positional

/-!
The parts of a numeral: a sign, the digits before the point and those behind it. Positional notation
writes such numerals, and all their digits together are the number that is written.
-/

namespace ScalarLowering

namespace Numeral

inductive Sign : List Char → Bool → Prop
  | absent : Sign [] false
  | plus : Sign ['+'] false
  | minus : Sign ['-'] true

/-- What may follow the whole digits of a numeral, and the digits behind the point in it. -/
inductive Tail : List Char → List Char → Prop
  | absent : Tail [] []
  | point (fraction : List Char) : Tail ('.' :: fraction) fraction

/-- A numeral with a point or none: its sign, its whole digits and those behind the point. -/
structure Pointed (text : List Char) (negative : Bool) (whole fraction : List Char) : Prop where
  parts : ∃ sign tail, Sign sign negative ∧ Tail tail fraction ∧ text = sign ++ (whole ++ tail)
  digits : ∀ c ∈ whole ++ fraction, c.isDigit
  nonempty : whole ++ fraction ≠ []

theorem value_append (whole fraction : List Char) :
    value (whole ++ fraction) = 10 ^ fraction.length * value whole + value fraction := by
  rw [value, Nat.ofDigitChars_append, Nat.ofDigitChars_eq_ofDigitChars_zero]
  rfl

theorem value_replicate_zero_append (count : Nat) (spelling : List Char) :
    value (List.replicate count '0' ++ spelling) = value spelling := by
  rw [value_append, value, Nat.ofDigitChars_replicate_zero, Nat.mul_zero, Nat.mul_zero, Nat.zero_add]

theorem value_append_replicate_zero (spelling : List Char) (count : Nat) :
    value (spelling ++ List.replicate count '0') = value spelling * 10 ^ count := by
  rw [value_append, List.length_replicate, value, value, Nat.ofDigitChars_replicate_zero,
    Nat.mul_zero, Nat.add_zero, Nat.mul_comm]

theorem length_digits_le_iff {n count : Nat} (positive : 0 < count) :
    (digits n).length ≤ count ↔ n < 10 ^ count :=
  Nat.length_toDigits_le_iff (by decide) positive

theorem length_digits_pos (n : Nat) : 0 < (digits n).length :=
  List.length_pos_iff.mpr (digits_ne_nil n)

theorem lt_pow_length (n : Nat) : n < 10 ^ (digits n).length :=
  (length_digits_le_iff (length_digits_pos n)).mp (Nat.le_refl _)

theorem pow_length_le {n : Nat} (positive : 0 < n) : 10 ^ ((digits n).length - 1) ≤ n := by
  have some := length_digits_pos n
  by_cases single : (digits n).length - 1 = 0
  · rw [single, pow_zero]
    exact positive
  · rw [← Nat.not_lt, ← length_digits_le_iff (Nat.pos_of_ne_zero single)]
    omega

theorem length_digits_pow (count : Nat) : (digits (10 ^ count)).length = count + 1 := by
  have upper : (digits (10 ^ count)).length ≤ count + 1 :=
    (length_digits_le_iff (Nat.succ_pos count)).mpr
      (Nat.pow_lt_pow_right (by decide) count.lt_succ_self)
  have lower := lt_pow_length (10 ^ count)
  rw [Nat.pow_lt_pow_iff_right (by decide)] at lower
  omega

theorem splitSign_sign (text : List Char) :
    ∃ sign, Sign sign (splitSign text).1 ∧ text = sign ++ (splitSign text).2 := by
  unfold splitSign
  split
  next rest => exact ⟨['-'], .minus, rfl⟩
  next rest => exact ⟨['+'], .plus, rfl⟩
  next => exact ⟨[], .absent, rfl⟩

theorem splitSign_append {sign body : List Char} {negative : Bool} (signed : Sign sign negative)
    (unsigned : splitSign body = (false, body)) : splitSign (sign ++ body) = (negative, body) := by
  cases signed with
  | absent => exact unsigned
  | plus => rfl
  | minus => rfl

theorem Sign.eq_of_mem {sign : List Char} {negative : Bool} (signed : Sign sign negative) {c : Char}
    (member : c ∈ sign) : c = '+' ∨ c = '-' := by
  cases signed with
  | absent => contradiction
  | plus => exact .inl (List.mem_singleton.mp member)
  | minus => exact .inr (List.mem_singleton.mp member)

theorem splitSign_cons {c : Char} (unsigned : c.isDigit ∨ c = '.') (rest : List Char) :
    splitSign (c :: rest) = (false, c :: rest) := by
  unfold splitSign
  split
  next minus =>
    cases minus
    exact absurd unsigned (by decide)
  next plus =>
    cases plus
    exact absurd unsigned (by decide)
  next => rfl

theorem exists_head {whole tail fraction : List Char} (tailed : Tail tail fraction)
    (digits : ∀ c ∈ whole ++ fraction, c.isDigit) (nonempty : whole ++ fraction ≠ []) :
    ∃ c rest, whole ++ tail = c :: rest ∧ (c.isDigit ∨ c = '.') := by
  cases whole with
  | cons c rest => exact ⟨c, rest ++ tail, rfl, .inl (digits c List.mem_cons_self)⟩
  | nil =>
      cases tailed with
      | absent => exact absurd rfl nonempty
      | point => exact ⟨'.', fraction, rfl, .inr rfl⟩

theorem splitSign_unsigned {whole tail fraction : List Char} (tailed : Tail tail fraction)
    (digits : ∀ c ∈ whole ++ fraction, c.isDigit) (nonempty : whole ++ fraction ≠ [])
    (back : List Char) : splitSign (whole ++ tail ++ back) = (false, whole ++ tail ++ back) := by
  obtain ⟨c, rest, same, unsigned⟩ := exists_head tailed digits nonempty
  rw [same]
  exact splitSign_cons unsigned (rest ++ back)

theorem isDigit_or_eq_point {whole tail fraction : List Char} (tailed : Tail tail fraction)
    (digits : ∀ c ∈ whole ++ fraction, c.isDigit) {c : Char} (member : c ∈ whole ++ tail) :
    c.isDigit ∨ c = '.' := by
  rcases List.mem_append.mp member with digit | behind
  · exact .inl (digits c (List.mem_append_left fraction digit))
  · cases tailed with
    | absent => contradiction
    | point =>
        rcases List.mem_cons.mp behind with point | digit
        · exact .inr point
        · exact .inl (digits c (List.mem_append_right whole digit))

theorem Pointed.isDigit_or_mem {text whole fraction : List Char} {negative : Bool}
    (pointed : Pointed text negative whole fraction) {c : Char} (member : c ∈ text) :
    c.isDigit ∨ c ∈ ['.', '+', '-'] := by
  obtain ⟨⟨sign, tail, signed, tailed, rfl⟩, digits, _⟩ := pointed
  rcases List.mem_append.mp member with inSign | inBody
  · rcases signed.eq_of_mem inSign with rfl | rfl <;> exact .inr (by decide)
  · rcases isDigit_or_eq_point tailed digits inBody with digit | point
    · exact .inl digit
    · exact .inr (by simp [point])

theorem toNat?_eq_some_iff {text : List Char} {n : Nat} :
    toNat? text = some n ↔ (text ≠ [] ∧ ∀ c ∈ text, c.isDigit) ∧ value text = n := by
  unfold toNat?
  split
  next accepted =>
    rw [List.all_eq_true] at accepted
    rw [Option.some.injEq, and_iff_right accepted]
  next refused =>
    rw [List.all_eq_true] at refused
    exact ⟨fun found => by contradiction, fun found => absurd found.1 refused⟩

theorem signed_natAbs (i : Int) : signed (i < 0) i.natAbs = i := by
  unfold signed
  split
  next negative =>
    have := of_decide_eq_true negative
    omega
  next nonnegative =>
    have := of_decide_eq_false (Bool.eq_false_iff.mpr nonnegative)
    omega

theorem natAbs_signed (negative : Bool) (magnitude : Nat) :
    (signed negative magnitude).natAbs = magnitude := by
  cases negative with
  | false => rfl
  | true => exact Int.natAbs_neg magnitude

end Numeral

/-- Of digits with a point among them, as many stand behind the point as there are places. -/
theorem Positional.withPoint_eq {digits : List Char} (nonempty : digits ≠ []) (places : Nat) :
    ∃ whole tail fraction, Numeral.Tail tail fraction ∧ withPoint digits places = whole ++ tail ∧
      whole ++ fraction = List.replicate (places + 1 - digits.length) '0' ++ digits ∧
      fraction.length = places := by
  have positive := List.length_pos_iff.mpr nonempty
  rw [withPoint]
  split
  next none =>
    have unpadded : places + 1 - digits.length = 0 := by omega
    refine ⟨digits, [], [], .absent, (List.append_nil _).symm, ?_, none.symm⟩
    rw [unpadded, List.append_nil, List.replicate_zero, List.nil_append]
  next =>
    refine ⟨_, _, _, .point _, rfl, List.take_append_drop _ _, ?_⟩
    simp only [List.length_drop, List.length_append, List.length_replicate]
    omega

namespace Numeral

variable {whole tail fraction : List Char}

theorem pointed_withSign (negative : Bool) (tailed : Tail tail fraction)
    (digits : ∀ c ∈ whole ++ fraction, c.isDigit) (nonempty : whole ++ fraction ≠ []) :
    Pointed (withSign negative (whole ++ tail)) negative whole fraction where
  parts := by
    cases negative with
    | true => exact ⟨['-'], tail, .minus, tailed, rfl⟩
    | false => exact ⟨[], tail, .absent, tailed, rfl⟩
  digits := digits
  nonempty := nonempty

theorem pointed_digits (negative : Bool) {spelling : List Char} (digits : ∀ c ∈ spelling, c.isDigit)
    (nonempty : spelling ≠ []) : Pointed (withSign negative spelling) negative spelling [] := by
  have unpointed := List.append_nil spelling
  have pointed : Pointed (withSign negative (spelling ++ [])) negative spelling [] :=
    pointed_withSign negative .absent (by rwa [unpointed]) (by rwa [unpointed])
  rwa [unpointed] at pointed

theorem pointed_ofInt (i : Int) : Pointed (ofInt i) (i < 0) (digits i.natAbs) [] :=
  pointed_digits _ (fun _ => isDigit_of_mem_digits) (digits_ne_nil i.natAbs)

theorem isDigit_of_mem_replicate_zero {count : Nat} {c : Char}
    (member : c ∈ List.replicate count '0') : c.isDigit := by
  rw [List.eq_of_mem_replicate member]
  rfl

theorem pointed_withPoint (negative : Bool) (n places : Nat) :
    ∃ whole fraction, Pointed (withSign negative (Positional.withPoint (digits n) places)) negative
      whole fraction ∧ value (whole ++ fraction) = n ∧ fraction.length = places := by
  obtain ⟨whole, tail, fraction, tailed, written, padded, length⟩ :=
    Positional.withPoint_eq (digits_ne_nil n) places
  refine ⟨whole, fraction, ?_, ?_, length⟩
  · rw [written]
    refine pointed_withSign negative tailed ?_ ?_
    · intro c member
      rw [padded] at member
      rcases List.mem_append.mp member with zero | digit
      · exact isDigit_of_mem_replicate_zero zero
      · exact isDigit_of_mem_digits digit
    · rw [padded]
      exact List.append_ne_nil_of_right_ne_nil _ (digits_ne_nil n)
  · rw [padded, value_replicate_zero_append, value_digits]

/-- Digits that are scaled by a power of ten are a numeral of the scaled number: a positive power is
written out, and a negative one is the places behind the point. -/
theorem pointed_scaled (negative : Bool) (n : Nat) (exponent : Int) :
    ∃ whole fraction, Pointed (withSign negative (Positional.scaled (digits n) exponent)) negative
      whole fraction ∧ value (whole ++ fraction) = n * 10 ^ exponent.toNat ∧
      fraction.length = (-exponent).toNat := by
  rw [Positional.scaled]
  split
  next nonnegative =>
    refine ⟨digits n ++ List.replicate exponent.toNat '0', [], pointed_digits negative ?_ ?_, ?_, ?_⟩
    · intro c member
      rcases List.mem_append.mp member with digit | zero
      · exact isDigit_of_mem_digits digit
      · exact isDigit_of_mem_replicate_zero zero
    · exact List.append_ne_nil_of_left_ne_nil (digits_ne_nil n) _
    · rw [List.append_nil, value_append_replicate_zero, value_digits]
    · rw [List.length_nil]
      omega
  next small =>
    have unscaled : exponent.toNat = 0 := by omega
    rw [unscaled, pow_zero, mul_one]
    exact pointed_withPoint negative n _

end Numeral
end ScalarLowering
