import ScalarLowering.Proofs.Wire.Budget

/-!
Reading accepts the grammar and nothing else. An input is read as an expression if and only if it
starts with a form of that expression, and is refused as unreadable if and only if it starts with no
form at all, so every input has one of the two answers.
-/

namespace ScalarLowering.EngineExpr

open Wire

theorem ofBytes_eq_ok_iff {bytes : List UInt8} {expr : EngineExpr} :
    ofBytes bytes = .ok expr ↔ ∃ rest, readExpr bytes = .ok (expr, rest) := by
  unfold ofBytes
  cases read : readExpr bytes with
  | error fault => simp
  | ok answer =>
      rcases answer with ⟨found, rest⟩
      simp

theorem ofBytes_eq_error_iff {bytes : List UInt8} {fault : Fault} :
    ofBytes bytes = .error (.unreadable fault) ↔ readExpr bytes = .error fault := by
  unfold ofBytes
  cases read : readExpr bytes with
  | error found => simp
  | ok answer => simp

theorem ofBytes_of_mem {bytes : List UInt8} {expr : EngineExpr}
    (form : bytes ∈ Form.expr Form.wideInt expr) : ofBytes bytes = .ok expr :=
  ofBytes_eq_ok_iff.mpr ⟨[], readExpr_eq_ok_iff.mpr ⟨bytes, form, List.append_nil bytes⟩⟩

/-- The last part says that no input is refused for want of budget: a reader that may nest deeper
gives the same answer. -/
theorem ofBytes_accepts_exactly (bytes : List UInt8) :
    (∀ expr, ofBytes bytes = .ok expr ↔
      ∃ front ∈ Form.expr Form.wideInt expr, front <+: bytes) ∧
    ((∃ fault, ofBytes bytes = .error (.unreadable fault)) ↔
      ¬ ∃ expr, ∃ front ∈ Form.expr Form.wideInt expr, front <+: bytes) ∧
    ∀ extra, Reader.expr (bytes.length + extra) bytes = readExpr bytes := by
  have accepted : ∀ expr, ofBytes bytes = .ok expr ↔
      ∃ front ∈ Form.expr Form.wideInt expr, front <+: bytes := by
    intro expr
    rw [ofBytes_eq_ok_iff]
    constructor
    · intro read
      rcases read with ⟨rest, read⟩
      obtain ⟨front, form, split⟩ := readExpr_eq_ok_iff.mp read
      exact ⟨front, form, rest, split⟩
    · intro split
      rcases split with ⟨front, form, rest, split⟩
      exact ⟨rest, readExpr_eq_ok_iff.mpr ⟨front, form, split⟩⟩
  refine ⟨accepted, ?_, fun extra => ?_⟩
  · simp only [← accepted, ofBytes_eq_error_iff, ofBytes_eq_ok_iff]
    cases read : readExpr bytes with
    | error fault => simp
    | ok answer =>
        rcases answer with ⟨expr, rest⟩
        simp
  · exact (Reader.expr_agree bytes.length extra bytes (Nat.le_refl _)).symm

end ScalarLowering.EngineExpr
