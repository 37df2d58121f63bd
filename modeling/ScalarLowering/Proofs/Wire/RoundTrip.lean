import ScalarLowering.Proofs.Wire.Trees

/-!
What is written for an expression is one of its forms, so it reads back as that expression. The only
condition is that no length outgrows the eight bytes in which lengths are written.
-/

namespace ScalarLowering

namespace EngineType

mutual

/-- The lengths that are written for a type: of its lists, and of its texts in bytes. -/
def lengths : EngineType → List Nat
  | .row names types =>
      names.length :: types.length :: names.map String.utf8ByteSize ++ lengthsOfAll types
  | _ => []
termination_by structural type => type

def lengthsOfAll : List EngineType → List Nat
  | [] => []
  | type :: rest => lengths type ++ lengthsOfAll rest
termination_by structural types => types

end

theorem lengthsOfAll_eq_flatMap (types : List EngineType) :
    lengthsOfAll types = types.flatMap lengths := by
  induction types with
  | nil => rfl
  | cons first rest induction => rw [lengthsOfAll, induction, List.flatMap_cons]

end EngineType

/-- The limbs of a wide integer are a list like any other. -/
def Datum.lengths : Datum → List Nat
  | .varChar value => [value.utf8ByteSize]
  | .varBinary value => [value.utf8ByteSize]
  | .hugeInt value => [Wire.limbCount value.natAbs]
  | _ => []

namespace EngineExpr

mutual

/-- The lengths that are written for an expression, also within its types and constants. -/
def lengths : EngineExpr → List Nat
  | .constant type value vector =>
      type.lengths ++ value.lengths ++ vector.toList.map List.length
  | .call type inputs function =>
      inputs.length :: function.utf8ByteSize :: type.lengths ++ lengthsOfAll inputs
  | .fieldAccess type field => field.utf8ByteSize :: type.lengths
termination_by structural expr => expr

def lengthsOfAll : List EngineExpr → List Nat
  | [] => []
  | expr :: rest => lengths expr ++ lengthsOfAll rest
termination_by structural exprs => exprs

end

theorem lengthsOfAll_eq_flatMap (exprs : List EngineExpr) :
    lengthsOfAll exprs = exprs.flatMap lengths := by
  induction exprs with
  | nil => rfl
  | cons first rest induction => rw [lengthsOfAll, induction, List.flatMap_cons]

end EngineExpr

namespace Wire

def lengthLimit : Nat := 0x10000000000000000

variable {α : Type}

theorem littleEndian_mem {width value : Nat} (bound : value < Nat.pow 256 width) :
    littleEndian width value ∈ Form.unsigned width value := by
  have spelled := ofLittleEndian_littleEndian width value
  rw [Nat.mod_eq_of_lt bound, Reader.ofLittleEndian_eq_number] at spelled
  exact ⟨length_littleEndian width value, spelled⟩

theorem writeVariant_append_mem {index : Nat} {bytes : List UInt8} {form : Language UInt8}
    (small : index < Nat.pow 256 4) (written : bytes ∈ form) :
    writeVariant index ++ bytes ∈ Form.unsigned 4 index * form :=
  Language.append_mem_mul (littleEndian_mem small) written

theorem writeLength_mem {length : Nat} (fits : length < lengthLimit) :
    writeLength length ∈ Form.unsigned 8 length :=
  littleEndian_mem fits

theorem writeText_mem {text : String} (fits : text.utf8ByteSize < lengthLimit) :
    writeText text ∈ Form.text text := by
  rw [writeText, Form.text, Utf8.length_encode, Utf8.encode_eq_toUTF8]
  exact Language.append_mem_mul (writeLength_mem fits) rfl

theorem flatMap_mem {write : α → List UInt8} {form : α → Language UInt8} {items : List α}
    (written : ∀ item ∈ items, write item ∈ form item) :
    items.flatMap write ∈ Form.sequence form items := by
  induction items with
  | nil => rfl
  | cons first others induction =>
      have rest := induction fun item member => written item (List.mem_cons_of_mem _ member)
      exact Language.append_mem_mul (written first List.mem_cons_self) rest

theorem writeList_mem {write : α → List UInt8} {form : α → Language UInt8} {items : List α}
    (fits : items.length < lengthLimit) (written : ∀ item ∈ items, write item ∈ form item) :
    writeList write items ∈ Form.counted form items :=
  Language.append_mem_mul (writeLength_mem fits) (flatMap_mem written)

theorem length_limbs (count n : Nat) : (limbs count n).length = count := by
  induction count generalizing n with
  | zero => rfl
  | succ count induction => rw [limbs, List.length_cons, induction]

theorem lt_pow_limbCount (n : Nat) : n < Nat.pow 0x100000000 (limbCount n) := by
  by_cases zero : n = 0
  · subst zero
    decide
  · have counted : limbCount n = n.log2 / 32 + 1 := if_neg zero
    have wide : n.log2 + 1 ≤ 32 * (n.log2 / 32 + 1) := by omega
    rw [counted]
    calc
      n < 2 ^ (n.log2 + 1) := Nat.lt_log2_self
      _ ≤ 2 ^ (32 * (n.log2 / 32 + 1)) := Nat.pow_le_pow_right (by decide) wide
      _ = Nat.pow 0x100000000 (n.log2 / 32 + 1) := pow_mul 2 32 _

theorem limbValue_limbs (n : Nat) : Form.limbValue (limbs (limbCount n) n) = n := by
  rw [← Reader.ofLimbs_eq_limbValue, ofLimbs_limbs, Nat.mod_eq_of_lt (lt_pow_limbCount n)]

theorem sign_known (value : Int) : value.sign = -1 ∨ value.sign = 0 ∨ value.sign = 1 := by
  have trichotomy := Int.sign_trichotomy value
  omega

theorem signed_sign (value : Int) :
    Form.signed 1 value.sign = Form.unsigned 1 (Int8.ofInt value.sign).toUInt8.toNat := by
  have word : (Int8.ofInt value.sign).toInt = value.sign := by
    rcases sign_known value with same | same | same <;> rw [same] <;> decide
  rw [← Form.signed_int8, word]

theorem writeHugeInt_spelled {value : Int} (fits : limbCount value.natAbs < lengthLimit) :
    writeHugeInt value ∈ Form.signed 1 value.sign *
      Form.counted Form.limb (limbs (limbCount value.natAbs) value.natAbs) := by
  have signForm : [(Int8.ofInt value.sign).toUInt8] ∈ Form.signed 1 value.sign := by
    rw [signed_sign]
    exact ⟨rfl, Nat.ofDigits_singleton⟩
  have limbsForm : writeList (fun limb : UInt32 => littleEndian 4 limb.toNat)
      (limbs (limbCount value.natAbs) value.natAbs) ∈
      Form.counted Form.limb (limbs (limbCount value.natAbs) value.natAbs) := by
    apply writeList_mem
    · rwa [length_limbs]
    · intro limb _
      exact littleEndian_mem limb.toNat_lt
  exact Language.append_mem_mul signForm limbsForm

theorem writeHugeInt_mem {value : Int} (fits : limbCount value.natAbs < lengthLimit) :
    writeHugeInt value ∈ Form.wideInt value := by
  refine ⟨value.sign, _, sign_known value, ?_, writeHugeInt_spelled fits⟩
  rw [Reader.signed_magnitude, limbValue_limbs, Int.sign_mul_natAbs]

mutual

theorem writeType_mem (type : EngineType) (fits : ∀ length ∈ type.lengths, length < lengthLimit) :
    writeType type ∈ Form.type type := by
  cases type with
  | boolean | integer | bigInt | varChar | timestamp =>
      rw [Form.type]
      exact littleEndian_mem (by decide)
  | decimal precision scale =>
      rw [Form.type, Form.signed_int32, writeType, List.append_assoc]
      apply writeVariant_append_mem (by decide)
      exact Language.append_mem_mul (littleEndian_mem precision.toNat_lt)
        (littleEndian_mem scale.toUInt32.toNat_lt)
  | row names types =>
      simp only [EngineType.lengths, List.cons_append, List.forall_mem_cons, List.forall_mem_append,
        List.forall_mem_map] at fits
      rcases fits with ⟨namesFit, typesFit, textsFit, partsFit⟩
      rw [Form.type_row, writeType, List.append_assoc, List.append_assoc]
      have namesForm := writeList_mem namesFit fun name member => writeText_mem (textsFit name member)
      have typesForm := Language.append_mem_mul (writeLength_mem typesFit)
        (writeTypes_mem types partsFit)
      apply writeVariant_append_mem (by decide)
      exact Language.append_mem_mul namesForm typesForm
termination_by structural type

theorem writeTypes_mem (types : List EngineType)
    (fit : ∀ length ∈ EngineType.lengthsOfAll types, length < lengthLimit) :
    writeTypes types ∈ Form.sequence Form.type types := by
  cases types with
  | nil => rfl
  | cons type rest =>
      rw [EngineType.lengthsOfAll, List.forall_mem_append] at fit
      exact Language.append_mem_mul (writeType_mem type fit.1) (writeTypes_mem rest fit.2)
termination_by structural types

end

theorem writeVector_mem {vector : Option (List UInt8)}
    (fits : ∀ length ∈ vector.toList.map List.length, length < lengthLimit) :
    writeOption (writeList fun byte => [byte]) vector ∈
      Form.optional (Form.counted fun byte => Form.unsigned 1 byte.toNat) vector := by
  cases vector with
  | none => exact ⟨rfl, Nat.ofDigits_singleton⟩
  | some bytes =>
      have octets : ∀ byte ∈ bytes, [byte] ∈ Form.unsigned 1 byte.toNat := by
        intro byte _
        exact ⟨rfl, Nat.ofDigits_singleton⟩
      have form := writeList_mem (fits _ List.mem_cons_self) octets
      have mark : [1] ∈ Form.unsigned 1 1 := ⟨rfl, Nat.ofDigits_singleton⟩
      exact Language.append_mem_mul mark form

def WideWritten (wide : Int → Language UInt8) : Prop :=
  ∀ value : Int, limbCount value.natAbs < lengthLimit → writeHugeInt value ∈ wide value

variable {wide : Int → Language UInt8}

theorem writeDatum_mem (wideWritten : WideWritten wide) (value : Datum)
    (fits : ∀ length ∈ value.lengths, length < lengthLimit) :
    writeDatum value ∈ Form.datum wide value := by
  cases value with
  | boolean value =>
      have form : writeBool value ∈ Form.truth value := by
        cases value <;> exact ⟨rfl, Nat.ofDigits_singleton⟩
      exact writeVariant_append_mem (by decide) form
  | tinyInt value =>
      rw [Form.datum, Form.signed_int8]
      apply writeVariant_append_mem (by decide)
      exact littleEndian_mem value.toUInt8.toNat_lt
  | smallInt value =>
      rw [Form.datum, Form.signed_int16]
      apply writeVariant_append_mem (by decide)
      exact littleEndian_mem value.toUInt16.toNat_lt
  | integer value =>
      rw [Form.datum, Form.signed_int32]
      apply writeVariant_append_mem (by decide)
      exact littleEndian_mem value.toUInt32.toNat_lt
  | bigInt value =>
      rw [Form.datum, Form.signed_int64]
      apply writeVariant_append_mem (by decide)
      exact littleEndian_mem value.toUInt64.toNat_lt
  | double value =>
      apply writeVariant_append_mem (by decide)
      exact littleEndian_mem value.bits.toNat_lt
  | varChar value | varBinary value =>
      have form := writeText_mem (fits _ List.mem_cons_self)
      exact writeVariant_append_mem (by decide) form
  | hugeInt value =>
      have form := wideWritten value (fits _ List.mem_cons_self)
      exact writeVariant_append_mem (by decide) form

mutual

theorem writeExpr_mem (wideWritten : WideWritten wide) (expr : EngineExpr)
    (fits : ∀ length ∈ expr.lengths, length < lengthLimit) :
    writeExpr expr ∈ Form.expr wide expr := by
  cases expr with
  | constant type value vector =>
      simp only [EngineExpr.lengths, List.forall_mem_append] at fits
      rcases fits with ⟨⟨typeFits, valueFits⟩, vectorFits⟩
      rw [Form.expr, writeExpr, List.append_assoc, List.append_assoc]
      have valueForm := writeDatum_mem wideWritten value valueFits
      apply writeVariant_append_mem (by decide)
      apply Language.append_mem_mul (writeType_mem type typeFits)
      exact Language.append_mem_mul valueForm (writeVector_mem vectorFits)
  | call type inputs function =>
      simp only [EngineExpr.lengths, List.cons_append, List.forall_mem_cons,
        List.forall_mem_append] at fits
      rcases fits with ⟨inputsFit, functionFits, typeFits, partsFit⟩
      rw [Form.expr_call, writeExpr, List.append_assoc, List.append_assoc, List.append_assoc]
      have inputsForm := Language.append_mem_mul (writeLength_mem inputsFit)
        (writeExprs_mem wideWritten inputs partsFit)
      have tail := Language.append_mem_mul inputsForm (writeText_mem functionFits)
      rw [List.append_assoc] at tail
      apply writeVariant_append_mem (by decide)
      exact Language.append_mem_mul (writeType_mem type typeFits) tail
  | fieldAccess type field =>
      simp only [EngineExpr.lengths, List.forall_mem_cons] at fits
      rcases fits with ⟨fieldFits, typeFits⟩
      rw [Form.expr, writeExpr, List.append_assoc]
      apply writeVariant_append_mem (by decide)
      exact Language.append_mem_mul (writeType_mem type typeFits) (writeText_mem fieldFits)
termination_by structural expr

theorem writeExprs_mem (wideWritten : WideWritten wide) (exprs : List EngineExpr)
    (fit : ∀ length ∈ EngineExpr.lengthsOfAll exprs, length < lengthLimit) :
    writeExprs exprs ∈ Form.sequence (Form.expr wide) exprs := by
  cases exprs with
  | nil => rfl
  | cons expr rest =>
      rw [EngineExpr.lengthsOfAll, List.forall_mem_append] at fit
      exact Language.append_mem_mul (writeExpr_mem wideWritten expr fit.1)
        (writeExprs_mem wideWritten rest fit.2)
termination_by structural exprs

end

end Wire

namespace EngineExpr

/-- Writing loses nothing. Equality of expressions is equality of the bits of their doubles. -/
theorem ofBytes_toBytes (expr : EngineExpr)
    (fits : ∀ length ∈ expr.lengths, length < Wire.lengthLimit) :
    ofBytes expr.toBytes = .ok expr := by
  have form : expr.toBytes ∈ Wire.Form.expr Wire.Form.wideInt expr :=
    Wire.writeExpr_mem (fun _ => Wire.writeHugeInt_mem) expr fits
  have read : Wire.readExpr expr.toBytes = .ok (expr, []) :=
    Wire.readExpr_eq_ok_iff.mpr ⟨expr.toBytes, form, List.append_nil _⟩
  rw [ofBytes, read]

/-- A row of unequal lists, a NaN with a payload, wide integers of both signs, and both kinds of
vector. -/
theorem ofBytes_toBytes_mixed :
    (∀ length ∈ (call (.row ["a", "é"] [.decimal 38 (-2)])
        [ constant .bigInt (.hugeInt (-0x1000000000000000000000000)) (some [0, 255]),
          constant .timestamp (.hugeInt 0) (some []),
          constant .integer (.double ⟨0xFFF0000000000001⟩) none,
          fieldAccess (.row [] [.boolean, .varChar]) "" ] "if").lengths,
      length < Wire.lengthLimit) ∧
    ofBytes (call (.row ["a", "é"] [.decimal 38 (-2)])
        [ constant .bigInt (.hugeInt (-0x1000000000000000000000000)) (some [0, 255]),
          constant .timestamp (.hugeInt 0) (some []),
          constant .integer (.double ⟨0xFFF0000000000001⟩) none,
          fieldAccess (.row [] [.boolean, .varChar]) "" ] "if").toBytes =
      .ok (call (.row ["a", "é"] [.decimal 38 (-2)])
        [ constant .bigInt (.hugeInt (-0x1000000000000000000000000)) (some [0, 255]),
          constant .timestamp (.hugeInt 0) (some []),
          constant .integer (.double ⟨0xFFF0000000000001⟩) none,
          fieldAccess (.row [] [.boolean, .varChar]) "" ] "if") :=
  ⟨by decide, ofBytes_toBytes _ (by decide)⟩

end EngineExpr
end ScalarLowering
