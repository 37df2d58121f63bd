/-!
Integers that fit a signed machine word. Each conversion answers the word whose value is the given
integer, and nothing when the integer lies outside the word's range, so no value is ever wrapped.
-/

namespace ScalarLowering.Word

def int32? (i : Int) : Option Int32 :=
  if range : Int32.minValue.toInt ≤ i ∧ i ≤ Int32.maxValue.toInt then
    some (Int32.ofIntLE i range.1 range.2)
  else none

def int64? (i : Int) : Option Int64 :=
  if range : Int64.minValue.toInt ≤ i ∧ i ≤ Int64.maxValue.toInt then
    some (Int64.ofIntLE i range.1 range.2)
  else none

theorem int32?_eq_some_iff {i : Int} {word : Int32} : int32? i = some word ↔ word.toInt = i := by
  unfold int32?
  split
  next => rw [Option.some.injEq, ← Int32.toInt_inj, Int32.toInt_ofIntLE, eq_comm]
  next outside =>
    refine ⟨fun found => by contradiction, ?_⟩
    rintro rfl
    exact absurd ⟨word.minValue_le_toInt, word.toInt_le⟩ outside

theorem int64?_eq_some_iff {i : Int} {word : Int64} : int64? i = some word ↔ word.toInt = i := by
  unfold int64?
  split
  next => rw [Option.some.injEq, ← Int64.toInt_inj, Int64.toInt_ofIntLE, eq_comm]
  next outside =>
    refine ⟨fun found => by contradiction, ?_⟩
    rintro rfl
    exact absurd ⟨word.minValue_le_toInt, word.toInt_le⟩ outside

end ScalarLowering.Word
