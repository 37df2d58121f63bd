import ScalarLowering.Proofs.Text.Numerals

/-!
Which numerals are read as integers: those without a point. Nothing but digits may follow the sign, so
that a text with any other character is no integer, and neither is a number with digits behind the
point.
-/

namespace ScalarLowering.Numeral

theorem toInt?_signed {sign spelling : List Char} {negative : Bool} (signs : Sign sign negative)
    (digits : ∀ c ∈ spelling, c.isDigit) (nonempty : spelling ≠ []) :
    toInt? (sign ++ spelling) = some (signed negative (value spelling)) := by
  obtain ⟨c, rest, rfl⟩ := List.exists_cons_of_ne_nil nonempty
  have unsigned := splitSign_cons (.inl (digits c List.mem_cons_self)) rest
  have magnitude : toNat? (c :: rest) = some (value (c :: rest)) :=
    toNat?_eq_some_iff.mpr ⟨⟨nonempty, digits⟩, rfl⟩
  simp only [toInt?, splitSign_append signs unsigned, magnitude, Option.map_some]

theorem mem_of_mem_splitSign {text : List Char} {c : Char} (member : c ∈ (splitSign text).2) :
    c ∈ text := by
  obtain ⟨sign, _, parted⟩ := splitSign_sign text
  rw [parted]
  exact List.mem_append_right sign member

theorem toInt?_eq_none {text : List Char} {c : Char} (member : c ∈ text)
    (other : ¬ (c.isDigit ∨ c = '+' ∨ c = '-')) : toInt? text = none := by
  obtain ⟨sign, signs, parted⟩ := splitSign_sign text
  rw [parted] at member
  have inBody : c ∈ (splitSign text).2 := by
    refine (List.mem_append.mp member).resolve_left fun inSign => other (.inr ?_)
    exact signs.eq_of_mem inSign
  have refused : toNat? (splitSign text).2 = none := by
    refine if_neg fun accepted => other (.inl ?_)
    exact List.all_eq_true.mp accepted.2 c inBody
  rw [toInt?, refused, Option.map_none]

structure Unpointed (text : List Char) (negative : Bool) (spelling : List Char) : Prop where
  parts : ∃ sign, Sign sign negative ∧ text = sign ++ spelling
  digits : ∀ c ∈ spelling, c.isDigit
  nonempty : spelling ≠ []

theorem toInt?_eq_some_iff {text : List Char} {i : Int} :
    toInt? text = some i ↔
      ∃ negative spelling, Unpointed text negative spelling ∧ signed negative (value spelling) = i := by
  constructor
  · intro read
    obtain ⟨magnitude, counted, same⟩ := Option.map_eq_some_iff.mp read
    obtain ⟨⟨nonempty, digits⟩, rfl⟩ := toNat?_eq_some_iff.mp counted
    exact ⟨_, _, ⟨splitSign_sign text, digits, nonempty⟩, same⟩
  · rintro ⟨negative, spelling, ⟨⟨sign, signs, rfl⟩, digits, nonempty⟩, rfl⟩
    exact toInt?_signed signs digits nonempty

/-- A numeral is read as an integer if and only if it has no point. -/
theorem toInt?_pointed {text whole fraction : List Char} {negative : Bool}
    (pointed : Pointed text negative whole fraction) :
    toInt? text =
      if '.' ∈ text then none else some (signed negative (value (whole ++ fraction))) := by
  obtain ⟨⟨sign, tail, signs, tailed, rfl⟩, digits, nonempty⟩ := pointed
  cases tailed with
  | absent =>
      rw [List.append_nil] at digits nonempty ⊢
      have unpointed : '.' ∉ sign ++ whole := by
        intro member
        rcases List.mem_append.mp member with inSign | digit
        · exact absurd (signs.eq_of_mem inSign) (by decide)
        · exact absurd (digits '.' digit) (by decide)
      rw [if_neg unpointed, toInt?_signed signs digits nonempty]
  | point =>
      have member : '.' ∈ sign ++ (whole ++ '.' :: fraction) := by simp
      rw [if_pos member, toInt?_eq_none member (by decide)]

theorem point_mem_withSign_iff (negative : Bool) (spelling : List Char) :
    '.' ∈ withSign negative spelling ↔ '.' ∈ spelling := by
  cases negative with
  | false => rfl
  | true => simp [withSign]

theorem point_mem_withPoint_iff (n places : Nat) :
    '.' ∈ Positional.withPoint (digits n) places ↔ 0 < places := by
  rw [Positional.withPoint]
  split
  next none =>
    refine iff_of_false (fun member => ?_) (by omega)
    exact absurd (isDigit_of_mem_digits member) (by decide)
  next some => exact iff_of_true (by simp) (by omega)

theorem point_mem_scaled_iff (n : Nat) (exponent : Int) :
    '.' ∈ Positional.scaled (digits n) exponent ↔ exponent < 0 := by
  rw [Positional.scaled]
  split
  next nonnegative =>
    refine iff_of_false (fun member => ?_) (by omega)
    rcases List.mem_append.mp member with digit | zero
    · exact absurd (isDigit_of_mem_digits digit) (by decide)
    · exact absurd (isDigit_of_mem_replicate_zero zero) (by decide)
  next negative =>
    rw [point_mem_withPoint_iff]
    omega

/-- Scaled digits are read as the integer that they are, unless the last of them stand behind the
point. -/
theorem toInt?_scaled (negative : Bool) (n : Nat) (exponent : Int) :
    toInt? (withSign negative (Positional.scaled (digits n) exponent)) =
      if exponent < 0 then none else some (signed negative (n * 10 ^ exponent.toNat)) := by
  obtain ⟨whole, fraction, pointed, counted, _⟩ := pointed_scaled negative n exponent
  simp only [toInt?_pointed pointed, point_mem_withSign_iff, point_mem_scaled_iff, counted]

end ScalarLowering.Numeral
