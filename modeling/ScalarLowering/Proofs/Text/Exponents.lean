import ScalarLowering.Binary64.Text
import ScalarLowering.Proofs.Text.Integers

/-!
Numerals that may end in an exponent. A text is such a numeral in one way only: its sign, its digits
before and behind the point, and its exponent are found in it one after another.
-/

namespace ScalarLowering.Numeral

/-- What may follow the digits of a numeral, and the exponent that is written there. -/
inductive Exponent : List Char → Option Int → Prop
  | absent : Exponent [] none
  | written {letter : Char} {sign spelling : List Char} {negative : Bool}
      (marked : letter = 'e' ∨ letter = 'E') (signs : Sign sign negative)
      (digits : ∀ c ∈ spelling, c.isDigit) (nonempty : spelling ≠ []) :
      Exponent (letter :: (sign ++ spelling)) (some (signed negative (value spelling)))

structure Scientific (text : List Char) (negative : Bool) (whole fraction : List Char)
    (exponent : Option Int) : Prop where
  parts : ∃ front back, Pointed front negative whole fraction ∧ Exponent back exponent ∧
    text = front ++ back

theorem Pointed.scientific {text whole fraction : List Char} {negative : Bool}
    (pointed : Pointed text negative whole fraction) :
    Scientific text negative whole fraction none :=
  ⟨text, [], pointed, .absent, (List.append_nil text).symm⟩

section Parts

variable {whole tail fraction back : List Char} {exponent : Option Int}

theorem exponent?_eq (written : Exponent back exponent) :
    Binary64.exponent? back = some (exponent.getD 0) := by
  cases written with
  | absent => rfl
  | written marked signs digits nonempty =>
      simp only [Binary64.exponent?, marked, if_true, toInt?_signed signs digits nonempty,
        Option.getD_some]

theorem Exponent.eq_none_iff (written : Exponent back exponent) : exponent = none ↔ back = [] := by
  cases written with
  | absent => exact iff_of_true rfl rfl
  | written => exact iff_of_false (Option.some_ne_none _) (List.cons_ne_nil _ _)

theorem Exponent.unique {other : Option Int} (written : Exponent back exponent)
    (again : Exponent back other) : exponent = other := by
  have present : exponent = none ↔ other = none := written.eq_none_iff.trans again.eq_none_iff.symm
  have same : exponent.getD 0 = other.getD 0 :=
    Option.some.inj ((exponent?_eq written).symm.trans (exponent?_eq again))
  cases exponent with
  | none => exact (present.mp rfl).symm
  | some e => cases other with
    | none => exact present.mpr rfl
    | some f => exact congrArg some same

theorem takeWhile_back (written : Exponent back exponent) : back.takeWhile Char.isDigit = [] := by
  cases written with
  | absent => rfl
  | written marked _ _ _ =>
      refine List.takeWhile_cons_of_neg ?_
      rcases marked with rfl | rfl <;> decide

theorem dropWhile_back (written : Exponent back exponent) : back.dropWhile Char.isDigit = back := by
  have parts := List.takeWhile_append_dropWhile (p := Char.isDigit) (l := back)
  rwa [takeWhile_back written, List.nil_append] at parts

theorem splitFraction_append (tailed : Tail tail fraction) (written : Exponent back exponent)
    (digits : ∀ c ∈ fraction, c.isDigit) :
    Binary64.splitFraction (tail ++ back) = (fraction, back) := by
  cases tailed with
  | absent =>
      cases written with
      | absent => rfl
      | written marked _ _ _ => rcases marked with rfl | rfl <;> rfl
  | point =>
      change ((fraction ++ back).takeWhile Char.isDigit, (fraction ++ back).dropWhile Char.isDigit) = _
      rw [List.takeWhile_append_of_pos digits, List.dropWhile_append_of_pos digits,
        takeWhile_back written, dropWhile_back written, List.append_nil]

theorem takeWhile_tail (tailed : Tail tail fraction) (written : Exponent back exponent) :
    (tail ++ back).takeWhile Char.isDigit = [] := by
  cases tailed with
  | absent => exact takeWhile_back written
  | point => rfl

variable (tailed : Tail tail fraction) (written : Exponent back exponent)
  (digits : ∀ c ∈ whole, c.isDigit)

include tailed written digits

theorem takeWhile_whole : (whole ++ (tail ++ back)).takeWhile Char.isDigit = whole := by
  rw [List.takeWhile_append_of_pos digits, takeWhile_tail tailed written, List.append_nil]

theorem dropWhile_whole : (whole ++ (tail ++ back)).dropWhile Char.isDigit = tail ++ back := by
  have parts := List.takeWhile_append_dropWhile (p := Char.isDigit) (l := whole ++ (tail ++ back))
  rw [takeWhile_whole tailed written digits] at parts
  exact List.append_cancel_left parts

end Parts

namespace Scientific

variable {text whole fraction : List Char} {negative : Bool} {exponent : Option Int}
  (numeral : Scientific text negative whole fraction exponent)

include numeral

theorem digits : ∀ c ∈ whole ++ fraction, c.isDigit := by
  obtain ⟨_, _, pointed, _⟩ := numeral.parts
  exact pointed.digits

theorem nonempty : whole ++ fraction ≠ [] := by
  obtain ⟨_, _, pointed, _⟩ := numeral.parts
  exact pointed.nonempty

theorem splitSign_eq : ∃ tail back, Tail tail fraction ∧ Exponent back exponent ∧
    splitSign text = (negative, whole ++ (tail ++ back)) := by
  obtain ⟨front, back, pointed, written, rfl⟩ := numeral.parts
  obtain ⟨⟨sign, tail, signs, tailed, rfl⟩, digits, nonempty⟩ := pointed
  refine ⟨tail, back, tailed, written, ?_⟩
  have body : sign ++ (whole ++ tail) ++ back = sign ++ (whole ++ tail ++ back) :=
    List.append_assoc _ _ _
  rw [body, splitSign_append signs (splitSign_unsigned tailed digits nonempty back),
    List.append_assoc]

theorem isDigit_or_mem {c : Char} (member : c ∈ text) :
    c.isDigit ∨ c ∈ ['.', '+', '-', 'e', 'E'] := by
  obtain ⟨front, back, pointed, written, rfl⟩ := numeral.parts
  rcases List.mem_append.mp member with inFront | inBack
  · rcases pointed.isDigit_or_mem inFront with digit | other
    · exact .inl digit
    · exact .inr (List.mem_append_left ['e', 'E'] other)
  · cases written with
    | absent => contradiction
    | written marked signs digits _ =>
        rcases List.mem_cons.mp inBack with rfl | inExponent
        · rcases marked with rfl | rfl <;> exact .inr (by decide)
        · rcases List.mem_append.mp inExponent with inSign | digit
          · rcases signs.eq_of_mem inSign with rfl | rfl <;> exact .inr (by decide)
          · exact .inl (digits c digit)

/-- There is one way only to take a numeral apart. -/
theorem unique {others rest : List Char} {negated : Bool} {power : Option Int}
    (again : Scientific text negated others rest power) :
    negative = negated ∧ whole = others ∧ fraction = rest ∧ exponent = power := by
  obtain ⟨tail, back, tailed, written, body⟩ := numeral.splitSign_eq
  obtain ⟨tail', back', tailed', written', body'⟩ := again.splitSign_eq
  have inWhole : ∀ c ∈ whole, c.isDigit := fun c member =>
    numeral.digits c (List.mem_append_left fraction member)
  have inOthers : ∀ c ∈ others, c.isDigit := fun c member =>
    again.digits c (List.mem_append_left rest member)
  have inFraction : ∀ c ∈ fraction, c.isDigit := fun c member =>
    numeral.digits c (List.mem_append_right whole member)
  have inRest : ∀ c ∈ rest, c.isDigit := fun c member =>
    again.digits c (List.mem_append_right others member)
  obtain ⟨sign, same⟩ := Prod.mk.inj (body.symm.trans body')
  have wholes : whole = others := by
    rw [← takeWhile_whole tailed written inWhole, same, takeWhile_whole tailed' written' inOthers]
  have behind : tail ++ back = tail' ++ back' := by
    rw [← dropWhile_whole tailed written inWhole, same, dropWhile_whole tailed' written' inOthers]
  have fractions := splitFraction_append tailed written inFraction
  rw [behind, splitFraction_append tailed' written' inRest] at fractions
  obtain ⟨rfl, rfl⟩ := Prod.mk.inj fractions
  exact ⟨sign, wholes, rfl, written.unique written'⟩

end Scientific
end ScalarLowering.Numeral
