import ScalarLowering.Proofs.Wire.Exactness
import ScalarLowering.Proofs.Wire.Lengths

/-!
What is written for an expression that was read. All forms but those of wide integers are the bytes
that are written, so what is written again differs from what was read in wide integers only, where it
is never longer. Both facts are one comparison of written bytes with forms, kept by putting bytes one
behind the other.
-/

namespace ScalarLowering

namespace Wire

variable {α : Type} {related : List UInt8 → List UInt8 → Prop} {written front back : List UInt8}
  {form frontForm backForm : Language UInt8}

/-- A comparison of byte strings that can be made piece by piece. -/
structure Piecewise (related : List UInt8 → List UInt8 → Prop) : Prop where
  refl : ∀ bytes, related bytes bytes
  append : ∀ {front back otherFront otherBack}, related front otherFront → related back otherBack →
    related (front ++ back) (otherFront ++ otherBack)

def Against (related : List UInt8 → List UInt8 → Prop) (written : List UInt8)
    (form : Language UInt8) : Prop :=
  ∀ bytes ∈ form, related written bytes

theorem piecewise_eq : Piecewise Eq where
  refl _ := rfl
  append := congrArg₂ (· ++ ·)

theorem piecewise_length_le : Piecewise fun left right => left.length ≤ right.length where
  refl _ := Nat.le_refl _
  append frontShorter backShorter := by
    rw [List.length_append, List.length_append]
    exact Nat.add_le_add frontShorter backShorter

namespace Against

theorem of_eq (piecewise : Piecewise related) (same : Against Eq written form) :
    Against related written form := by
  intro bytes member
  rw [← same bytes member]
  exact piecewise.refl written

theorem mul (piecewise : Piecewise related) (first : Against related front frontForm)
    (second : Against related back backForm) :
    Against related (front ++ back) (frontForm * backForm) := by
  intro bytes member
  obtain ⟨before, beforeForm, after, afterForm, rfl⟩ := Language.mem_mul.mp member
  exact piecewise.append (first before beforeForm) (second after afterForm)

theorem sequence (piecewise : Piecewise related) {write : α → List UInt8}
    {form : α → Language UInt8} {items : List α}
    (each : ∀ item ∈ items, Against related (write item) (form item)) :
    Against related (items.flatMap write) (Form.sequence form items) := by
  induction items with
  | nil =>
      intro bytes empty
      cases empty
      exact piecewise.refl []
  | cons first others induction =>
      have rest := induction fun item member => each item (List.mem_cons_of_mem _ member)
      exact mul piecewise (each first List.mem_cons_self) rest

end Against

theorem littleEndian_number (bytes : List UInt8) :
    littleEndian bytes.length (Form.number bytes) = bytes := by
  induction bytes with
  | nil => rfl
  | cons byte bytes induction =>
      have bound := byte.toNat_lt
      have low : UInt8.ofNat (Form.number (byte :: bytes)) = byte := by
        rw [← UInt8.toNat_inj, UInt8.toNat_ofNat', Form.number, List.map_cons, Nat.ofDigits_cons]
        omega
      have high : Form.number (byte :: bytes) / 256 = Form.number bytes := by
        rw [Form.number, List.map_cons, Nat.ofDigits_cons, Form.number]
        omega
      rw [List.length_cons, littleEndian, low, high, induction]

theorem littleEndian_against (width value : Nat) :
    Against Eq (littleEndian width value) (Form.unsigned width value) := by
  intro bytes member
  rcases member with ⟨rfl, rfl⟩
  exact littleEndian_number bytes

theorem writeText_against (text : String) : Against Eq (writeText text) (Form.text text) := by
  rw [writeText, Utf8.length_encode, Utf8.encode_eq_toUTF8]
  apply Against.mul piecewise_eq (littleEndian_against 8 _)
  intro bytes same
  exact same.symm

theorem writeList_against (piecewise : Piecewise related) {write : α → List UInt8}
    {form : α → Language UInt8} {items : List α}
    (each : ∀ item ∈ items, Against related (write item) (form item)) :
    Against related (writeList write items) (Form.counted form items) :=
  .mul piecewise (.of_eq piecewise (littleEndian_against 8 _)) (.sequence piecewise each)

mutual

theorem writeType_against (type : EngineType) : Against Eq (writeType type) (Form.type type) := by
  cases type with
  | boolean | integer | bigInt | varChar | timestamp =>
      rw [Form.type]
      exact littleEndian_against 4 _
  | decimal precision scale =>
      rw [Form.type, Form.signed_int32, writeType, List.append_assoc]
      exact .mul piecewise_eq (littleEndian_against 4 _)
        (.mul piecewise_eq (littleEndian_against 4 _) (littleEndian_against 4 _))
  | row names types =>
      rw [Form.type_row, writeType, List.append_assoc, List.append_assoc]
      have namesSame : Against Eq (writeList writeText names) (Form.counted Form.text names) :=
        writeList_against piecewise_eq fun name _ => writeText_against name
      exact .mul piecewise_eq (littleEndian_against 4 _) (.mul piecewise_eq namesSame
        (.mul piecewise_eq (littleEndian_against 8 _) (writeTypes_against types)))
termination_by structural type

theorem writeTypes_against (types : List EngineType) :
    Against Eq (writeTypes types) (Form.sequence Form.type types) := by
  cases types with
  | nil =>
      intro bytes empty
      exact empty.symm
  | cons type rest => exact .mul piecewise_eq (writeType_against type) (writeTypes_against rest)
termination_by structural types

end

theorem writeVector_against (vector : Option (List UInt8)) :
    Against Eq (writeOption (writeList fun byte => [byte]) vector)
      (Form.optional (Form.counted fun byte => Form.unsigned 1 byte.toNat) vector) := by
  cases vector with
  | none => exact littleEndian_against 1 0
  | some bytes =>
      apply Against.mul piecewise_eq (littleEndian_against 1 1)
      apply writeList_against piecewise_eq
      intro byte _
      have octet := littleEndian_against 1 byte.toNat
      rwa [littleEndian, UInt8.ofNat_toNat, littleEndian] at octet

variable {wide : Int → Language UInt8}

theorem writeDatum_against (piecewise : Piecewise related) (value : Datum)
    (each : ∀ i, value = .hugeInt i → Against related (writeHugeInt i) (wide i)) :
    Against related (writeDatum value) (Form.datum wide value) := by
  have variant (index : Nat) : Against Eq (writeVariant index) (Form.unsigned 4 index) :=
    littleEndian_against 4 index
  cases value with
  | boolean value =>
      have truth : Against Eq (writeBool value) (Form.truth value) := by
        cases value <;> exact littleEndian_against 1 _
      exact .of_eq piecewise (.mul piecewise_eq (variant 0) truth)
  | tinyInt value =>
      rw [Form.datum, Form.signed_int8]
      exact .of_eq piecewise (.mul piecewise_eq (variant 1) (littleEndian_against 1 _))
  | smallInt value =>
      rw [Form.datum, Form.signed_int16]
      exact .of_eq piecewise (.mul piecewise_eq (variant 2) (littleEndian_against 2 _))
  | integer value =>
      rw [Form.datum, Form.signed_int32]
      exact .of_eq piecewise (.mul piecewise_eq (variant 3) (littleEndian_against 4 _))
  | bigInt value =>
      rw [Form.datum, Form.signed_int64]
      exact .of_eq piecewise (.mul piecewise_eq (variant 4) (littleEndian_against 8 _))
  | double value =>
      exact .of_eq piecewise (.mul piecewise_eq (variant 5) (littleEndian_against 8 _))
  | varChar value => exact .of_eq piecewise (.mul piecewise_eq (variant 6) (writeText_against value))
  | varBinary value => exact .of_eq piecewise (.mul piecewise_eq (variant 7) (writeText_against value))
  | hugeInt value => exact .mul piecewise (.of_eq piecewise (variant 8)) (each value rfl)

mutual

theorem writeExpr_against (piecewise : Piecewise related) (expr : EngineExpr)
    (each : ∀ i, .hugeInt i ∈ expr.constants → Against related (writeHugeInt i) (wide i)) :
    Against related (writeExpr expr) (Form.expr wide expr) := by
  cases expr with
  | constant type value vector =>
      rw [Form.expr, writeExpr, List.append_assoc, List.append_assoc]
      have valueAgainst := writeDatum_against piecewise value fun i same =>
        each i (List.mem_singleton.mpr same.symm)
      exact .mul piecewise (.of_eq piecewise (littleEndian_against 4 0))
        (.mul piecewise (.of_eq piecewise (writeType_against type))
          (.mul piecewise valueAgainst (.of_eq piecewise (writeVector_against vector))))
  | call type inputs function =>
      rw [Form.expr_call, writeExpr, List.append_assoc, List.append_assoc, List.append_assoc]
      have inputsAgainst : Against related (writeLength inputs.length ++ writeExprs inputs)
          (Form.counted (Form.expr wide) inputs) :=
        .mul piecewise (.of_eq piecewise (littleEndian_against 8 _))
          (writeExprs_against piecewise inputs each)
      have tail := inputsAgainst.mul piecewise (.of_eq piecewise (writeText_against function))
      rw [List.append_assoc] at tail
      exact .mul piecewise (.of_eq piecewise (littleEndian_against 4 1))
        (.mul piecewise (.of_eq piecewise (writeType_against type)) tail)
  | fieldAccess type field =>
      rw [Form.expr, writeExpr, List.append_assoc]
      exact .of_eq piecewise (.mul piecewise_eq (littleEndian_against 4 2)
        (.mul piecewise_eq (writeType_against type) (writeText_against field)))
termination_by structural expr

theorem writeExprs_against (piecewise : Piecewise related) (exprs : List EngineExpr)
    (each : ∀ i, .hugeInt i ∈ EngineExpr.constantsOfAll exprs →
      Against related (writeHugeInt i) (wide i)) :
    Against related (writeExprs exprs) (Form.sequence (Form.expr wide) exprs) := by
  cases exprs with
  | nil =>
      intro bytes empty
      cases empty
      exact piecewise.refl []
  | cons expr rest =>
      have first := writeExpr_against piecewise expr fun i member =>
        each i (List.mem_append_left _ member)
      have others := writeExprs_against piecewise rest fun i member =>
        each i (List.mem_append_right _ member)
      exact first.mul piecewise others
termination_by structural exprs

end

theorem writeLimbs_against (spelled : List UInt32) :
    Against Eq (writeList (fun limb : UInt32 => littleEndian 4 limb.toNat) spelled)
      (Form.counted Form.limb spelled) :=
  writeList_against piecewise_eq fun limb _ => littleEndian_against 4 limb.toNat

theorem length_writeLimbs (spelled : List UInt32) :
    (writeList (fun limb : UInt32 => littleEndian 4 limb.toNat) spelled).length =
      8 + 4 * spelled.length := by
  rw [writeList, writeLength, List.length_append, length_littleEndian, List.length_flatMap]
  simp [length_littleEndian, Nat.mul_comm]

/-- A wide integer is never written longer than it was read. -/
theorem writeHugeInt_shorter (value : Int) :
    Against (fun left right => left.length ≤ right.length) (writeHugeInt value)
      (Form.wideInt value) := by
  intro bytes member
  rcases member with ⟨sign, spelled, known, same, member⟩
  rw [Reader.signed_magnitude] at same
  obtain ⟨front, ⟨width, _⟩, back, backForm, rfl⟩ := Language.mem_mul.mp member
  rw [← writeLimbs_against spelled back backForm, List.length_append, width, writeHugeInt,
    List.length_cons, length_writeLimbs, length_writeLimbs, length_limbs]
  have fewer := limbCount_natAbs_le known same
  omega

theorem writeHugeInt_canonical (value : Int) :
    Against Eq (writeHugeInt value) (Form.canonicalInt value) := by
  intro bytes member
  rcases member with ⟨sign, spelled, known, canonical, same, member⟩
  obtain ⟨rfl, magnitude⟩ := sign_of_canonical known canonical same
  obtain ⟨front, frontForm, back, backForm, rfl⟩ := Language.mem_mul.mp member
  rw [signed_sign] at frontForm
  rw [← littleEndian_against 1 _ front frontForm, ← writeLimbs_against spelled back backForm,
    writeHugeInt, magnitude, limbs_limbValue canonical.highest, littleEndian, littleEndian,
    UInt8.ofNat_toNat]
  rfl

theorem canonicalInt_written : WideWritten Form.canonicalInt := by
  intro value fits
  refine ⟨value.sign, _, sign_known value, canonical_limbs value, ?_, writeHugeInt_spelled fits⟩
  rw [limbValue_limbs, Int.sign_mul_natAbs]

end Wire

namespace EngineExpr

open Wire

/-- What is written for an expression is the bytes it was read from, with the wide integers spelled
without waste. -/
theorem toBytes_normalises {bytes : List UInt8} {expr : EngineExpr}
    (read : ofBytes bytes = .ok expr) :
    ∃ consumed rest, consumed ++ rest = bytes ∧ readExpr bytes = .ok (expr, rest) ∧
      expr.toBytes.length ≤ consumed.length ∧ ofBytes expr.toBytes = .ok expr ∧
      (expr.toBytes = consumed ↔ consumed ∈ Form.expr Form.canonicalInt expr) ∧
      ((∀ i, .hugeInt i ∉ expr.constants) → expr.toBytes = consumed) := by
  obtain ⟨rest, read⟩ := ofBytes_eq_ok_iff.mp read
  obtain ⟨consumed, form, split⟩ := readExpr_eq_ok_iff.mp read
  have fits := expr_lengths_lt expr consumed form
  have written : expr.toBytes ∈ Form.expr Form.wideInt expr :=
    writeExpr_mem (fun _ => writeHugeInt_mem) expr fits
  have again : readExpr expr.toBytes = .ok (expr, []) :=
    readExpr_eq_ok_iff.mpr ⟨expr.toBytes, written, List.append_nil _⟩
  refine ⟨consumed, rest, split, read, ?_, ofBytes_eq_ok_iff.mpr ⟨[], again⟩, ?_, ?_⟩
  · exact writeExpr_against piecewise_length_le expr (fun i _ => writeHugeInt_shorter i) consumed form
  · constructor
    · intro same
      rw [← same]
      exact writeExpr_mem canonicalInt_written expr fits
    · exact writeExpr_against piecewise_eq expr (fun i _ => writeHugeInt_canonical i) consumed
  · intro none
    exact writeExpr_against piecewise_eq expr (fun i held => absurd held (none i)) consumed form

/-- The number 5 with a zero limb above it, and a byte left over. -/
def paddedFive : List UInt8 :=
  [0, 0, 0, 0, 2, 0, 0, 0, 8, 0, 0, 0, 1, 2, 0, 0, 0, 0, 0, 0, 0, 5, 0, 0, 0, 0, 0, 0, 0, 0, 7]

theorem toBytes_normalises_paddedFive :
    ofBytes paddedFive = .ok (constant .bigInt (.hugeInt 5) none) ∧
      ∃ consumed rest, consumed ++ rest = paddedFive ∧
        readExpr paddedFive = .ok (constant .bigInt (.hugeInt 5) none, rest) ∧
        (constant .bigInt (.hugeInt 5) none).toBytes.length ≤ consumed.length ∧
        ((constant .bigInt (.hugeInt 5) none).toBytes = consumed ↔
          consumed ∈ Form.expr Form.canonicalInt (constant .bigInt (.hugeInt 5) none)) := by
  have read : ofBytes paddedFive = .ok (constant .bigInt (.hugeInt 5) none) := rfl
  obtain ⟨consumed, rest, split, left, shorter, _, canonical, _⟩ := toBytes_normalises read
  exact ⟨read, consumed, rest, split, left, shorter, canonical⟩

end EngineExpr
end ScalarLowering
