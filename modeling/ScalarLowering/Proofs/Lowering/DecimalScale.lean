import ScalarLowering.Proofs.Decimal.Number
import ScalarLowering.Proofs.Decimal.Text
import ScalarLowering.Proofs.Lowering.Constants
import ScalarLowering.Proofs.Lowering.Results

/-!
Decimals as rational numbers. A decimal constant is read at the scale that its type declares, but
the integer in it was counted at the scale of the literal. The constant stands for the literal's
number where the two scales agree, and where they do not, for that number times a power of ten.
-/

namespace ScalarLowering

namespace Literal

open Numeral

/-- The number that a literal denotes, and the decimal places that it is written with. -/
inductive Denotes : Literal → ℚ → Int → Prop
  | exact (value : Int64) : Denotes (.exact value) value.toInt 0
  | decimal (d : Decimal) : Denotes (.decimal d) (scaled d.unscaled d.scale.toInt) d.scale.toInt
  | text {spelling : String} {negative : Bool} {whole fraction : List Char}
      (pointed : Pointed spelling.toList negative whole fraction) :
      Denotes (.text spelling) (number negative whole fraction) fraction.length

theorem denotes_text_iff (spelling : String) :
    (∃ number places, Denotes (.text spelling) number places) ↔
      ∃ d, Decimal.ofChars? spelling.toList = some d := by
  constructor
  · intro number
    rcases number with ⟨_, _, denotes⟩
    cases denotes with
    | text pointed => exact ⟨_, Decimal.ofChars?_of_pointed pointed⟩
  · intro decimal
    rcases decimal with ⟨d, read⟩
    obtain ⟨negative, whole, fraction, pointed, _⟩ := Decimal.ofChars?_eq_some_iff.mp read
    exact ⟨_, _, .text pointed⟩

variable {value : Literal} {number : ℚ} {places : Int}

theorem asDecimal_of_denotes (denotes : value.Denotes number places) :
    ∃ d, value.asDecimal = .ok d ∧ scaled d.unscaled places = number := by
  cases denotes with
  -- An exact integer is read through its text, which is a numeral without a point.
  | exact i =>
      have read := Decimal.ofChars?_of_pointed (pointed_ofInt i.toInt)
      have integer :
          signed (i.toInt < 0) (Numeral.value (digits i.toInt.natAbs ++ [])) = i.toInt := by
        rw [List.append_nil, value_digits, signed_natAbs]
      refine ⟨_, asDecimal_of_ofChars? (by nofun) read, ?_⟩
      rw [scaled_zero, Decimal.ofUnscaled, integer]
  | decimal d => exact ⟨d, rfl, rfl⟩
  | text pointed =>
      have read := Decimal.ofChars?_of_pointed pointed
      exact ⟨_, asDecimal_of_ofChars? (by nofun) read, scaled_signed _ _ _⟩

end Literal

def Datum.unscaled? : Datum → Option Int
  | .bigInt value => some value.toInt
  | .hugeInt value => some value
  | _ => none

/-- The number that a decimal constant stands for, read at the scale of its type. -/
def EngineExpr.decimalNumber? : EngineExpr → Option ℚ
  | .constant (.decimal _ scale) value _ => value.unscaled?.map (scaled · scale.toInt)
  | _ => none

theorem Decimal.unscaled?_of_lower {d : Decimal} {datum : Datum}
    (stored : d.lower.result = .ok datum) : datum.unscaled? = some d.unscaled := by
  rcases stored_of_lower stored with ⟨value, same, rfl⟩ | rfl
  · rw [← same]
    rfl
  · rfl

namespace PlanExpr

variable {value : Literal} {number : ℚ} {places : Int} {precision : UInt32} {scale : Int32}
  {env : Environment} {expr : EngineExpr}

/-- A decimal constant stands for its literal's number only if the number has as many places as its
type declares, or is zero. Otherwise it stands for that number shifted by the difference. -/
theorem decimalNumber_of_lower (denotes : value.Denotes number places)
    (lowered : lower env (.literal value (.decimal precision scale)) = .ok expr) :
    ∃ datum held, expr = .constant (.decimal precision scale) datum none ∧
      expr.decimalNumber? = some held ∧ held = number * 10 ^ (places - scale.toInt) ∧
      (held = number ↔ number = 0 ∨ places = scale.toInt) := by
  obtain ⟨d, read, rfl⟩ := Literal.asDecimal_of_denotes denotes
  rw [lower_literal] at lowered
  obtain ⟨type, typed, lowered⟩ := bind_eq_ok.mp lowered
  obtain ⟨datum, stored, lowered⟩ := bind_eq_ok.mp lowered
  -- From here on the scale of the type is the declared one, and the integer is the literal's.
  cases typed
  cases lowered
  rw [Literal.lower_decimal, read] at stored
  have held : datum.unscaled? = some d.unscaled := Decimal.unscaled?_of_lower stored
  refine ⟨datum, scaled d.unscaled scale.toInt, rfl, ?_, scaled_eq_mul _ _ _,
    scaled_eq_scaled_iff _ _ _⟩
  rw [EngineExpr.decimalNumber?, held, Option.map_some]

/-- The text `1.5` under two declared places is stored as 15, which is 0.15 there. -/
theorem decimalNumber_of_lower_tenth :
    (Literal.text "1.5").Denotes 1.5 1 ∧
      lower ⟨[], Except.ok⟩ (.literal (.text "1.5") (.decimal 10 2)) =
        .ok (.constant (.decimal 10 2) (.bigInt 15) none) ∧
      (EngineExpr.constant (.decimal 10 2) (.bigInt 15) none).decimalNumber? =
        some (1.5 * 10 ^ (-1 : Int)) := by
  have pointed : Numeral.Pointed "1.5".toList false ['1'] ['5'] :=
    ⟨⟨[], ['.', '5'], .absent, .point ['5'], rfl⟩, List.all_eq_true.mp rfl,
      List.cons_ne_nil _ _⟩
  have number : Numeral.number false ['1'] ['5'] = 1.5 := by
    have five : Numeral.value ['5'] = 5 := rfl
    have one : Numeral.value ['1'] = 1 := rfl
    rw [Numeral.number, scaled, one, five]
    norm_num
  have denotes : (Literal.text "1.5").Denotes 1.5 1 := number ▸ .text pointed
  have lowered : lower ⟨[], Except.ok⟩ (.literal (.text "1.5") (.decimal 10 2)) =
      .ok (.constant (.decimal 10 2) (.bigInt 15) none) := by rfl
  obtain ⟨_, held, _, stands, shifted, _⟩ := decimalNumber_of_lower denotes lowered
  exact ⟨denotes, lowered, shifted ▸ stands⟩

/-- Lowering does not keep the number of every decimal literal: 1.5 with two declared places. -/
theorem decimalNumber_not_kept :
    ¬ ∀ (value : Literal) (number : ℚ) (places : Int) (precision : UInt32) (scale : Int32)
      (env : Environment) (expr : EngineExpr), value.Denotes number places →
      lower env (.literal value (.decimal precision scale)) = .ok expr →
      expr.decimalNumber? = some number := by
  intro kept
  have same := kept (.decimal ⟨15, 2, 1⟩) _ _ 10 2 ⟨[], Except.ok⟩
    (.constant (.decimal 10 2) (.bigInt 15) none) (.decimal ⟨15, 2, 1⟩) rfl
  have equal : scaled 15 2 = scaled 15 1 := Option.some.inj same
  rw [scaled, scaled] at equal
  norm_num at equal

end PlanExpr
end ScalarLowering
