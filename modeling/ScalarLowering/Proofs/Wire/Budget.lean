import ScalarLowering.Proofs.Wire.Trees

/-!
The budget of a reader is never felt: a budget of one level for each byte gives what every larger
budget gives, on bytes that are refused as well as on bytes that are read.
-/

namespace ScalarLowering.Wire.Reader

variable {α β : Type} {bound : Nat} {left right : Reader α} {leftNext rightNext : α → Reader β}
  {form : α → Language UInt8}

def Agree (bound : Nat) (left right : Reader α) : Prop :=
  ∀ bytes, bytes.length ≤ bound → left bytes = right bytes

namespace Agree

theorem refl {reader : Reader α} : Agree bound reader reader := fun _ _ => rfl

theorem bind (sound : Sound left form) (first : Agree bound left right)
    (second : ∀ value, Agree bound (leftNext value) (rightNext value)) :
    Agree bound (left >>= leftNext) (right >>= rightNext) := by
  intro bytes short
  change (left bytes >>= fun step => leftNext step.1 step.2) =
    (right bytes >>= fun step => rightNext step.1 step.2)
  rw [← first bytes short]
  -- Soundness shows that the first reader leaves a part of the bytes, so the bound still holds.
  cases read : left bytes with
  | error fault => rfl
  | ok step =>
      obtain ⟨front, _, same⟩ := sound read
      have shorter := congrArg List.length same
      rw [List.length_append] at shorter
      exact second step.1 step.2 (by omega)

/-- The index of a variant pays for one level of the budget. -/
theorem variant {leftNext rightNext : UInt32 → Reader β}
    (second : ∀ index, Agree bound (leftNext index) (rightNext index)) :
    Agree (bound + 1) (word32 >>= leftNext) (word32 >>= rightNext) := by
  intro bytes short
  change (word32 bytes >>= fun step => leftNext step.1 step.2) =
    (word32 bytes >>= fun step => rightNext step.1 step.2)
  cases read : word32 bytes with
  | error fault => rfl
  | ok step =>
      obtain ⟨front, ⟨width, _⟩, same⟩ := word32_sound read
      have shorter := congrArg List.length same
      rw [List.length_append] at shorter
      exact second step.1 step.2 (by omega)

theorem many (sound : Sound left form) (items : Agree bound left right) (count : Nat) :
    Agree bound (many left count) (many right count) := by
  induction count with
  | zero => exact refl
  | succ count induction =>
      exact bind sound items fun first => bind (sound.many count) induction fun others => refl

theorem list (sound : Sound left form) (items : Agree bound left right) :
    Agree bound (list left) (list right) :=
  bind (fixed_sound 8) refl fun count => many sound items count

end Agree

theorem type_agree (budget extra : Nat) : Agree budget (type budget) (type (budget + extra)) := by
  induction budget with
  | zero =>
      intro bytes short
      -- Without bytes both readers stop at once, the larger one at the index of the variant.
      rw [List.length_eq_zero_iff.mp (Nat.le_zero.mp short), Nat.zero_add]
      cases extra <;> rfl
  | succ budget induction =>
      rw [Nat.succ_add]
      apply Agree.variant
      intro index
      split
      case h_7 =>
        apply Agree.bind (list_sound text_sound) .refl
        intro names
        exact .bind (list_sound (type_sound budget)) (.list (type_sound budget) induction)
          fun types => .refl
      all_goals exact .refl

theorem expr_agree (budget extra : Nat) : Agree budget (expr budget) (expr (budget + extra)) := by
  induction budget with
  | zero =>
      intro bytes short
      rw [List.length_eq_zero_iff.mp (Nat.le_zero.mp short), Nat.zero_add]
      cases extra <;> rfl
  | succ budget induction =>
      rw [Nat.succ_add]
      apply Agree.variant
      intro index
      split
      · exact .bind (type_sound budget) (type_agree budget extra) fun dataType => .refl
      · apply Agree.bind (type_sound budget) (type_agree budget extra)
        intro dataType
        exact .bind (list_sound (expr_sound budget)) (.list (expr_sound budget) induction)
          fun inputs => .refl
      · exact .bind (type_sound budget) (type_agree budget extra) fun dataType => .refl
      · exact .refl

end ScalarLowering.Wire.Reader
