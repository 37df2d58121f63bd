import ScalarLowering.Proofs.Wire.Fields

/-!
The readers of types, constant values and expressions accept the forms of trees. The budget plays no
part in what is accepted: a tree that is taken has a form however small the budget was, and a budget
of the length of a form suffices for it.
-/

namespace ScalarLowering.Wire

namespace Reader

theorem type_sound (budget : Nat) : Sound (type budget) Form.type := by
  induction budget with
  | zero => exact .fail
  | succ budget induction =>
      apply word32_sound.bind
      intro variant front variantForm
      -- The reader branches on the number of the variant, so that number stands for the word.
      generalize variant.toNat = index at variantForm
      match index, variantForm with
      | 0, variantForm => exact .done (by rwa [Form.type])
      | 1, variantForm => exact .done (by rwa [Form.type])
      | 2, variantForm => exact .done (by rwa [Form.type])
      | 3, variantForm => exact .done (by rwa [Form.type])
      | 4, variantForm => exact .done (by rwa [Form.type])
      | 5, variantForm =>
          apply word32_sound.bind
          intro precision middle precisionForm
          apply word32_sound.last
          intro scale back scaleForm
          rw [← UInt32.toUInt32_toInt32 scale, ← Form.signed_int32] at scaleForm
          rw [Form.type]
          exact Language.append_mem_mul variantForm (Language.append_mem_mul precisionForm scaleForm)
      | 6, variantForm =>
          apply (list_sound text_sound).bind
          intro names middle namesForm
          apply (list_sound induction).last
          intro types back typesForm
          rw [Form.type_row]
          exact Language.append_mem_mul variantForm (Language.append_mem_mul namesForm typesForm)
      | _ + 7, _ => exact .fail

theorem datum_sound : Sound datum (Form.datum Form.wideInt) := by
  apply word32_sound.bind
  intro variant front variantForm
  generalize variant.toNat = index at variantForm
  match index, variantForm with
  | 0, variantForm =>
      exact bool_sound.map fun value back backForm => Language.append_mem_mul variantForm backForm
  | 1, variantForm =>
      apply (fixed_sound 1).map
      intro value back backForm
      apply Language.append_mem_mul variantForm
      rwa [Form.signed_int8, UInt8.toUInt8_toInt8,
        UInt8.toNat_ofNat_of_lt' (Form.lt_of_mem_unsigned backForm)]
  | 2, variantForm =>
      apply (fixed_sound 2).map
      intro value back backForm
      apply Language.append_mem_mul variantForm
      rwa [Form.signed_int16, UInt16.toUInt16_toInt16,
        UInt16.toNat_ofNat_of_lt' (Form.lt_of_mem_unsigned backForm)]
  | 3, variantForm =>
      apply (fixed_sound 4).map
      intro value back backForm
      apply Language.append_mem_mul variantForm
      rwa [Form.signed_int32, UInt32.toUInt32_toInt32,
        UInt32.toNat_ofNat_of_lt' (Form.lt_of_mem_unsigned backForm)]
  | 4, variantForm =>
      apply (fixed_sound 8).map
      intro value back backForm
      apply Language.append_mem_mul variantForm
      rwa [Form.signed_int64, UInt64.toUInt64_toInt64,
        UInt64.toNat_ofNat_of_lt' (Form.lt_of_mem_unsigned backForm)]
  | 5, variantForm =>
      apply (fixed_sound 8).map
      intro value back backForm
      apply Language.append_mem_mul variantForm
      rwa [UInt64.toNat_ofNat_of_lt' (Form.lt_of_mem_unsigned backForm)]
  | 6, variantForm =>
      exact text_sound.map fun value back backForm => Language.append_mem_mul variantForm backForm
  | 7, variantForm =>
      exact text_sound.map fun value back backForm => Language.append_mem_mul variantForm backForm
  | 8, variantForm =>
      exact hugeInt_sound.map fun value back backForm => Language.append_mem_mul variantForm backForm
  | _ + 9, _ => exact .fail

theorem vector_sound :
    Sound (option (list octet)) (Form.optional (Form.counted fun byte => Form.unsigned 1 byte.toNat)) :=
  option_sound (list_sound octet_sound)

theorem expr_sound (budget : Nat) : Sound (expr budget) (Form.expr Form.wideInt) := by
  induction budget with
  | zero => exact .fail
  | succ budget induction =>
      apply word32_sound.bind
      intro variant front variantForm
      generalize variant.toNat = index at variantForm
      match index, variantForm with
      | 0, variantForm =>
          apply (type_sound budget).bind
          intro dataType middle typeForm
          apply datum_sound.bind
          intro value back valueForm
          apply vector_sound.last
          intro vector last vectorForm
          rw [Form.expr]
          exact Language.append_mem_mul variantForm (Language.append_mem_mul typeForm
            (Language.append_mem_mul valueForm vectorForm))
      | 1, variantForm =>
          apply (type_sound budget).bind
          intro dataType middle typeForm
          apply (list_sound induction).bind
          intro inputs back inputsForm
          apply text_sound.last
          intro function last functionForm
          rw [Form.expr_call]
          exact Language.append_mem_mul variantForm (Language.append_mem_mul typeForm
            (Language.append_mem_mul inputsForm functionForm))
      | 2, variantForm =>
          apply (type_sound budget).bind
          intro dataType middle typeForm
          apply text_sound.last
          intro field back fieldForm
          rw [Form.expr]
          exact Language.append_mem_mul variantForm (Language.append_mem_mul typeForm fieldForm)
      | _ + 3, _ => exact .fail

section Takes

variable {α β : Type} {bound : Nat} {next : UInt32 → Reader β} {back : Language UInt8} {answer : β}

theorem variant_takes {index : Nat} (after : Takes bound (next (UInt32.ofNat index)) back answer) :
    Takes (bound + 1) (word32 >>= next) (Form.unsigned 4 index * back) answer := by
  intro bytes form short rest
  obtain ⟨front, frontForm, last, lastForm, rfl⟩ := Language.mem_mul.mp form
  have width : front.length = 4 := frontForm.1
  rw [List.length_append] at short
  rw [List.append_assoc]
  exact bind_eq_ok.mpr ⟨_, _, word32_takes index front frontForm width.le _,
    after last lastForm (by omega) rest⟩

theorem leaf_takes {index : Nat} (leaf : next (UInt32.ofNat index) = pure answer) :
    Takes (bound + 1) (word32 >>= next) (Form.unsigned 4 index) answer := by
  rw [← mul_one (Form.unsigned 4 index)]
  exact variant_takes (leaf ▸ .pure)

/-- No form is as short as a budget of nothing. -/
theorem starved_takes {reader : Reader α} {index : Nat} {value : α} :
    Takes 0 reader (Form.unsigned 4 index * back) value := by
  intro bytes form short rest
  obtain ⟨front, ⟨width, _⟩, last, _, rfl⟩ := Language.mem_mul.mp form
  rw [List.length_append] at short
  omega

theorem type_takes (budget : Nat) (dataType : EngineType) :
    Takes budget (type budget) (Form.type dataType) dataType := by
  induction budget generalizing dataType with
  | zero =>
      have variant : ∃ index back, Form.type dataType = Form.unsigned 4 index * back := by
        cases dataType <;> rw [Form.type]
        case decimal | row => exact ⟨_, _, rfl⟩
        all_goals exact ⟨_, 1, (mul_one _).symm⟩
      rcases variant with ⟨index, back, same⟩
      rw [same]
      exact starved_takes
  | succ budget induction =>
      cases dataType with
      | boolean | integer | bigInt | varChar | timestamp =>
          rw [Form.type]
          exact leaf_takes rfl
      | decimal precision scale =>
          rw [Form.type, Form.signed_int32]
          apply variant_takes
          apply (word32_takes_toNat precision).bind
          exact (word32_takes_toNat scale.toUInt32).last
      | row names types =>
          rw [Form.type_row]
          apply variant_takes
          apply (list_takes fun name _ => text_takes name).bind
          exact (list_takes fun type _ => induction type).last

theorem datum_takes (value : Datum) : Takes bound datum (Form.datum Form.wideInt value) value := by
  cases value with
  | boolean value => exact (word32_takes 0).bind (bool_takes value).map
  | tinyInt value =>
      rw [Form.datum, Form.signed_int8]
      have same : Datum.tinyInt (UInt8.ofNat value.toUInt8.toNat).toInt8 = .tinyInt value := by
        rw [UInt8.ofNat_toNat, Int8.toInt8_toUInt8]
      exact (word32_takes 1).bind (fixed_map_takes same)
  | smallInt value =>
      rw [Form.datum, Form.signed_int16]
      have same : Datum.smallInt (UInt16.ofNat value.toUInt16.toNat).toInt16 = .smallInt value := by
        rw [UInt16.ofNat_toNat, Int16.toInt16_toUInt16]
      exact (word32_takes 2).bind (fixed_map_takes same)
  | integer value =>
      rw [Form.datum, Form.signed_int32]
      have same : Datum.integer (UInt32.ofNat value.toUInt32.toNat).toInt32 = .integer value := by
        rw [UInt32.ofNat_toNat, Int32.toInt32_toUInt32]
      exact (word32_takes 3).bind (fixed_map_takes same)
  | bigInt value =>
      rw [Form.datum, Form.signed_int64]
      have same : Datum.bigInt (UInt64.ofNat value.toUInt64.toNat).toInt64 = .bigInt value := by
        rw [UInt64.ofNat_toNat, Int64.toInt64_toUInt64]
      exact (word32_takes 4).bind (fixed_map_takes same)
  | double value =>
      have same : Datum.double ⟨UInt64.ofNat value.bits.toNat⟩ = .double value := by
        rw [UInt64.ofNat_toNat]
      exact (word32_takes 5).bind (fixed_map_takes same)
  | varChar value => exact (word32_takes 6).bind (text_takes value).map
  | varBinary value => exact (word32_takes 7).bind (text_takes value).map
  | hugeInt value => exact (word32_takes 8).bind (hugeInt_takes value).map

theorem expr_takes (budget : Nat) (tree : EngineExpr) :
    Takes budget (expr budget) (Form.expr Form.wideInt tree) tree := by
  induction budget generalizing tree with
  | zero =>
      cases tree <;> rw [Form.expr] <;> exact starved_takes
  | succ budget induction =>
      cases tree with
      | constant dataType value vector =>
          rw [Form.expr]
          apply variant_takes
          apply (type_takes budget dataType).bind
          apply (datum_takes value).bind
          exact (option_takes fun bytes _ => list_takes fun byte _ => octet_takes byte).last
      | call dataType inputs function =>
          rw [Form.expr_call]
          apply variant_takes
          apply (type_takes budget dataType).bind
          apply (list_takes fun input _ => induction input).bind
          exact (text_takes function).last
      | fieldAccess dataType field =>
          rw [Form.expr]
          apply variant_takes
          apply (type_takes budget dataType).bind
          exact (text_takes field).last

end Takes

end Reader

/-- What is read and what is left over make up the input, and every way to cut the input into a form
and a rest is found. -/
theorem readExpr_eq_ok_iff {bytes rest : List UInt8} {tree : EngineExpr} :
    readExpr bytes = .ok (tree, rest) ↔
      ∃ front ∈ Form.expr Form.wideInt tree, front ++ rest = bytes := by
  constructor
  · intro read
    exact Reader.expr_sound bytes.length read
  · intro split
    rcases split with ⟨front, form, rfl⟩
    have short : front.length ≤ (front ++ rest).length := by
      rw [List.length_append]
      omega
    exact Reader.expr_takes (front ++ rest).length tree front form short rest

end ScalarLowering.Wire
