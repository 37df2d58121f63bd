import Mathlib.Data.List.Forall2
import ScalarLowering.Operators.Table

/-!
Operator names up to the case of their ASCII letters. Two names are the same to a table exactly when
they differ in letter case only.
-/

namespace ScalarLowering

section Letters

variable {c d : Char}

theorem toNat_toUpper :
    c.toUpper.toNat = if 97 ≤ c.toNat ∧ c.toNat ≤ 122 then c.toNat - 32 else c.toNat := by
  have first : 'a'.val.toNat = 97 := rfl
  have last : 'z'.val.toNat = 122 := rfl
  unfold Char.toUpper Char.toNat
  simp only [UInt32.le_iff_toNat_le, first, last]
  split
  next lower =>
    -- The distance to the other case is negative, so that the sum wraps.
    have wrapped : (c.val + ('A'.val - 'a'.val)).toNat = (c.val.toNat + 4294967264) % 2 ^ 32 :=
      UInt32.toNat_add _ _
    rw [wrapped]
    omega
  next => rfl

theorem toNat_toLower :
    c.toLower.toNat = if 65 ≤ c.toNat ∧ c.toNat ≤ 90 then c.toNat + 32 else c.toNat := by
  have first : 'A'.val.toNat = 65 := rfl
  have last : 'Z'.val.toNat = 90 := rfl
  unfold Char.toLower Char.toNat
  simp only [UInt32.le_iff_toNat_le, first, last]
  split
  next upper =>
    have sum : (c.val + ('a'.val - 'A'.val)).toNat = (c.val.toNat + 32) % 2 ^ 32 :=
      UInt32.toNat_add _ _
    rw [sum]
    omega
  next => rfl

theorem toUpper_eq_toUpper_iff : c.toUpper = d.toUpper ↔ c.toLower = d.toLower := by
  rw [← Char.toNat_inj, ← Char.toNat_inj, toNat_toUpper, toNat_toUpper, toNat_toLower, toNat_toLower]
  split_ifs <;> omega

end Letters

variable {left right : String}

def SameButCase (left right : String) : Prop :=
  left.toList.map Char.toLower = right.toList.map Char.toLower

instance : Decidable (SameButCase left right) := inferInstanceAs (Decidable (_ = _))

theorem foldCase_eq_iff : foldCase left = foldCase right ↔ SameButCase left right := by
  have folded (fold : Char → Char) : left.toList.map fold = right.toList.map fold ↔
      List.Forall₂ (fun c d => fold c = fold d) left.toList right.toList := by
    rw [← List.forall₂_eq_eq_eq, List.forall₂_map_left_iff, List.forall₂_map_right_iff]
  rw [foldCase, foldCase, String.ofList_inj, SameButCase, folded, folded]
  simp only [toUpper_eq_toUpper_iff]

namespace OperatorTable

variable {table : OperatorTable} {added : List (String × String)} {operator function : String}

theorem resolve_eq_ok_iff :
    table.resolve operator = .ok function ↔ table.get? operator = some function := by
  unfold resolve
  cases table.get? operator with
  | none => simp
  | some found => simp

theorem resolve_eq_error_iff {refusal : Refusal} :
    table.resolve operator = .error refusal ↔
      refusal = .unknownOperator operator ∧ table.get? operator = none := by
  unfold resolve
  cases table.get? operator with
  | none => simp [eq_comm]
  | some found => simp

theorem get?_congr (same : SameButCase left right) : table.get? left = table.get? right := by
  rw [get?, get?, foldCase_eq_iff.mpr same]

/-- Operators that are entered under other names do not change an operator. -/
theorem get?_insertAll (unrelated : ∀ entry ∈ added, ¬ SameButCase operator entry.1) :
    (table.insertAll added).get? operator = table.get? operator := by
  induction added generalizing table with
  | nil => rfl
  | cons entry rest induction =>
      rw [List.forall_mem_cons] at unrelated
      change ((table.insert entry.1 entry.2).insertAll rest).get? operator = _
      rw [induction unrelated.2, get?_insert, if_neg (mt foldCase_eq_iff.mp unrelated.1)]

end OperatorTable
end ScalarLowering
