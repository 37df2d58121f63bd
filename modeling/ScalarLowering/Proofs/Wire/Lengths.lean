import ScalarLowering.Proofs.Wire.Limbs

/-!
The lengths of what was read. Each of them stood in eight bytes of the input, so an expression that has
a form can be written.
-/

namespace ScalarLowering.Wire

variable {α : Type} {bytes : List UInt8}

theorem length_lt_of_mem {length : Nat} {rest : Language UInt8}
    (member : bytes ∈ Form.unsigned 8 length * rest) : length < lengthLimit := by
  obtain ⟨front, frontForm, _⟩ := Language.mem_mul.mp member
  exact Form.lt_of_mem_unsigned frontForm

theorem exists_mem_of_sequence {form : α → Language UInt8} {items : List α}
    (member : bytes ∈ Form.sequence form items) : ∀ item ∈ items, ∃ part, part ∈ form item := by
  induction items generalizing bytes with
  | nil => simp
  | cons first others induction =>
      obtain ⟨front, frontForm, back, backForm, _⟩ := Language.mem_mul.mp member
      exact List.forall_mem_cons.mpr ⟨⟨front, frontForm⟩, induction backForm⟩

mutual

theorem type_lengths_lt (type : EngineType) (bytes : List UInt8) :
    bytes ∈ Form.type type → ∀ length ∈ type.lengths, length < lengthLimit := by
  cases type with
  | boolean | integer | bigInt | varChar | timestamp | decimal =>
      intro _ length absent
      contradiction
  | row names types =>
      intro member
      rw [Form.type_row] at member
      obtain ⟨_, _, middle, middleForm, _⟩ := Language.mem_mul.mp member
      obtain ⟨front, namesForm, back, typesForm, _⟩ := Language.mem_mul.mp middleForm
      obtain ⟨_, _, texts, textsForm, _⟩ := Language.mem_mul.mp namesForm
      obtain ⟨_, _, parts, partsForm, _⟩ := Language.mem_mul.mp typesForm
      simp only [EngineType.lengths, List.cons_append, List.forall_mem_cons, List.forall_mem_append,
        List.forall_mem_map]
      refine ⟨length_lt_of_mem namesForm, length_lt_of_mem typesForm, ?_,
        types_lengths_lt types parts partsForm⟩
      intro name member
      obtain ⟨part, partForm⟩ := exists_mem_of_sequence textsForm name member
      exact length_lt_of_mem partForm
termination_by structural type

theorem types_lengths_lt (types : List EngineType) (bytes : List UInt8) :
    bytes ∈ Form.sequence Form.type types →
      ∀ length ∈ EngineType.lengthsOfAll types, length < lengthLimit := by
  cases types with
  | nil =>
      intro _ length absent
      contradiction
  | cons type rest =>
      intro member
      obtain ⟨front, frontForm, back, backForm, _⟩ := Language.mem_mul.mp member
      rw [EngineType.lengthsOfAll, List.forall_mem_append]
      exact ⟨type_lengths_lt type front frontForm, types_lengths_lt rest back backForm⟩
termination_by structural types

end

theorem datum_lengths_lt {value : Datum} (member : bytes ∈ Form.datum Form.wideInt value) :
    ∀ length ∈ value.lengths, length < lengthLimit := by
  cases value with
  | boolean | tinyInt | smallInt | integer | bigInt | double =>
      intro length absent
      contradiction
  | varChar value | varBinary value =>
      obtain ⟨_, _, text, textForm, _⟩ := Language.mem_mul.mp member
      exact List.forall_mem_singleton.mpr (length_lt_of_mem textForm)
  | hugeInt value =>
      obtain ⟨_, _, wide, wideForm, _⟩ := Language.mem_mul.mp member
      rcases wideForm with ⟨sign, spelled, known, same, wideForm⟩
      rw [Reader.signed_magnitude] at same
      obtain ⟨_, _, limbs, limbsForm, _⟩ := Language.mem_mul.mp wideForm
      have fewer := limbCount_natAbs_le known same
      exact List.forall_mem_singleton.mpr (fewer.trans_lt (length_lt_of_mem limbsForm))

theorem vector_length_lt {vector : Option (List UInt8)}
    (member : bytes ∈ Form.optional (Form.counted fun byte => Form.unsigned 1 byte.toNat) vector) :
    ∀ length ∈ vector.toList.map List.length, length < lengthLimit := by
  cases vector with
  | none => simp
  | some held =>
      obtain ⟨_, _, back, backForm, _⟩ := Language.mem_mul.mp member
      exact List.forall_mem_singleton.mpr (length_lt_of_mem backForm)

mutual

theorem expr_lengths_lt (expr : EngineExpr) (bytes : List UInt8) :
    bytes ∈ Form.expr Form.wideInt expr → ∀ length ∈ expr.lengths, length < lengthLimit := by
  cases expr with
  | constant type value vector =>
      intro member
      rw [Form.expr] at member
      obtain ⟨_, _, middle, middleForm, _⟩ := Language.mem_mul.mp member
      obtain ⟨front, typeForm, back, backForm, _⟩ := Language.mem_mul.mp middleForm
      obtain ⟨_, valueForm, _, vectorForm, _⟩ := Language.mem_mul.mp backForm
      rw [EngineExpr.lengths, List.forall_mem_append, List.forall_mem_append]
      exact ⟨⟨type_lengths_lt type front typeForm, datum_lengths_lt valueForm⟩,
        vector_length_lt vectorForm⟩
  | call type inputs function =>
      intro member
      rw [Form.expr_call] at member
      obtain ⟨_, _, middle, middleForm, _⟩ := Language.mem_mul.mp member
      obtain ⟨front, typeForm, back, backForm, _⟩ := Language.mem_mul.mp middleForm
      obtain ⟨_, inputsForm, _, functionForm, _⟩ := Language.mem_mul.mp backForm
      obtain ⟨_, _, parts, partsForm, _⟩ := Language.mem_mul.mp inputsForm
      simp only [EngineExpr.lengths, List.cons_append, List.forall_mem_cons, List.forall_mem_append]
      exact ⟨length_lt_of_mem inputsForm, length_lt_of_mem functionForm,
        type_lengths_lt type front typeForm, exprs_lengths_lt inputs parts partsForm⟩
  | fieldAccess type field =>
      intro member
      rw [Form.expr] at member
      obtain ⟨_, _, middle, middleForm, _⟩ := Language.mem_mul.mp member
      obtain ⟨front, typeForm, back, fieldForm, _⟩ := Language.mem_mul.mp middleForm
      rw [EngineExpr.lengths, List.forall_mem_cons]
      exact ⟨length_lt_of_mem fieldForm, type_lengths_lt type front typeForm⟩
termination_by structural expr

theorem exprs_lengths_lt (exprs : List EngineExpr) (bytes : List UInt8) :
    bytes ∈ Form.sequence (Form.expr Form.wideInt) exprs →
      ∀ length ∈ EngineExpr.lengthsOfAll exprs, length < lengthLimit := by
  cases exprs with
  | nil =>
      intro _ length absent
      contradiction
  | cons expr rest =>
      intro member
      obtain ⟨front, frontForm, back, backForm, _⟩ := Language.mem_mul.mp member
      rw [EngineExpr.lengthsOfAll, List.forall_mem_append]
      exact ⟨expr_lengths_lt expr front frontForm, exprs_lengths_lt rest back backForm⟩
termination_by structural exprs

end

end ScalarLowering.Wire
