import ScalarLowering.Proofs.Wire.Reencoding

/-!
Other bytes in place of those of an expression. Bytes of the same length are read as the expression
only if they are its bytes, up to the signs of wide integers that are zero. Every other spelling of a
wide integer is longer than the one that is written, and nothing else in a byte form could be shorter
to make up for it.
-/

namespace ScalarLowering

open Wire

/-- The place of the sign in the bytes of a wide zero, which stands behind the index of its variant. -/
def Datum.zeroSigns (value : Datum) : List Nat := if value = .hugeInt 0 then [4] else []

namespace EngineExpr

mutual

def zeroSigns : EngineExpr → List Nat
  | .constant type value _ => value.zeroSigns.map (4 + (writeType type).length + ·)
  | .call type inputs _ => (zeroSignsOfAll inputs).map (4 + (writeType type).length + 8 + ·)
  | .fieldAccess _ _ => []
termination_by structural expr => expr

def zeroSignsOfAll : List EngineExpr → List Nat
  | [] => []
  | expr :: rest => zeroSigns expr ++ (zeroSignsOfAll rest).map ((writeExpr expr).length + ·)
termination_by structural exprs => exprs

end

mutual

theorem zeroSigns_eq_nil (expr : EngineExpr) (nonzero : .hugeInt 0 ∉ expr.constants) :
    expr.zeroSigns = [] := by
  cases expr with
  | constant type value vector =>
      have other : value ≠ .hugeInt 0 := fun same => nonzero (List.mem_singleton.mpr same.symm)
      rw [zeroSigns, Datum.zeroSigns, if_neg other, List.map_nil]
  | call type inputs function =>
      rw [zeroSigns, zeroSignsOfAll_eq_nil inputs nonzero, List.map_nil]
  | fieldAccess type field => rfl
termination_by structural expr

theorem zeroSignsOfAll_eq_nil (exprs : List EngineExpr)
    (nonzero : .hugeInt 0 ∉ constantsOfAll exprs) : zeroSignsOfAll exprs = [] := by
  cases exprs with
  | nil => rfl
  | cons expr rest =>
      have first := zeroSigns_eq_nil expr fun held => nonzero (List.mem_append_left _ held)
      have others := zeroSignsOfAll_eq_nil rest fun held => nonzero (List.mem_append_right _ held)
      rw [zeroSignsOfAll, first, others, List.map_nil, List.append_nil]
termination_by structural exprs

end

end EngineExpr

namespace Wire

variable {α : Type} {places frontPlaces backPlaces : List Nat}
  {written bytes front back : List UInt8} {form frontForm backForm : Language UInt8}

/-- A byte from which a sign is read, as -1, 0 or 1. -/
def IsSign (byte : UInt8) : Prop :=
  ∃ sign : Int, (sign = -1 ∨ sign = 0 ∨ sign = 1) ∧ byte = (Int8.ofInt sign).toUInt8

/-- Bytes that differ from the written ones at most in the given places, where they hold signs. -/
structure Resigned (places : List Nat) (written bytes : List UInt8) : Prop where
  length : bytes.length = written.length
  differ : ∀ i, bytes[i]? ≠ written[i]? → i ∈ places ∧ ∃ byte, IsSign byte ∧ bytes[i]? = some byte

theorem Resigned.refl (places : List Nat) (written : List UInt8) :
    Resigned places written written where
  length := rfl
  differ _ other := absurd rfl other

theorem resigned_nil_iff : Resigned [] written bytes ↔ bytes = written := by
  constructor
  · intro resigned
    apply List.ext_getElem?
    intro i
    by_contra other
    exact absurd (resigned.differ i other).1 List.not_mem_nil
  · intro same
    exact same ▸ .refl [] bytes

theorem resigned_zero_iff {byte : UInt8} (held : IsSign byte) :
    Resigned [0] [byte] bytes ↔ ∃ sign, IsSign sign ∧ bytes = [sign] := by
  constructor
  · intro resigned
    obtain ⟨found, rfl⟩ := List.length_eq_one_iff.mp resigned.length
    by_cases same : found = byte
    · exact ⟨found, same ▸ held, rfl⟩
    · obtain ⟨_, sign, isSign, at0⟩ := resigned.differ 0 (by simpa using same)
      cases at0
      exact ⟨found, isSign, rfl⟩
  · intro single
    rcases single with ⟨sign, isSign, same⟩
    subst same
    refine ⟨rfl, fun i other => ?_⟩
    cases i with
    | zero => exact ⟨List.mem_singleton_self 0, sign, isSign, rfl⟩
    | succ i => contradiction

namespace Resigned

section Append

variable (resigned : Resigned (frontPlaces ++ backPlaces.map (front.length + ·)) (front ++ back) bytes)

include resigned

theorem take : Resigned frontPlaces front (bytes.take front.length) where
  length := by
    rw [List.length_take, resigned.length, List.length_append]
    omega
  differ i other := by
    by_cases inFront : i < front.length
    · have inside : (front ++ back)[i]? = front[i]? := List.getElem?_append_left inFront
      rw [List.getElem?_take_of_lt inFront] at other ⊢
      rw [← inside] at other
      obtain ⟨place, sign⟩ := resigned.differ i other
      refine ⟨?_, sign⟩
      simp only [List.mem_append, List.mem_map] at place
      rcases place with place | ⟨behind, _, same⟩
      · exact place
      · omega
    · rw [List.getElem?_eq_none (by simp; omega), List.getElem?_eq_none (by omega)] at other
      contradiction

theorem drop (within : ∀ place ∈ frontPlaces, place < front.length) :
    Resigned backPlaces back (bytes.drop front.length) where
  length := by
    rw [List.length_drop, resigned.length, List.length_append]
    omega
  differ i other := by
    rw [List.getElem?_drop] at other ⊢
    have inBack : (front ++ back)[front.length + i]? = back[i]? := by
      rw [List.getElem?_append_right (by omega), Nat.add_sub_cancel_left]
    rw [← inBack] at other
    obtain ⟨place, sign⟩ := resigned.differ _ other
    refine ⟨?_, sign⟩
    simp only [List.mem_append, List.mem_map] at place
    rcases place with place | ⟨behind, place, same⟩
    · have := within _ place
      omega
    · rwa [← Nat.add_left_cancel same]

end Append

theorem append {before after : List UInt8} (first : Resigned frontPlaces front before)
    (second : Resigned backPlaces back after) :
    Resigned (frontPlaces ++ backPlaces.map (front.length + ·)) (front ++ back)
      (before ++ after) where
  length := by rw [List.length_append, List.length_append, first.length, second.length]
  differ i other := by
    have long := first.length
    by_cases inFront : i < front.length
    · rw [List.getElem?_append_left (by omega), List.getElem?_append_left inFront] at other
      rw [List.getElem?_append_left (by omega)]
      obtain ⟨place, sign⟩ := first.differ i other
      exact ⟨List.mem_append_left _ place, sign⟩
    · rw [List.getElem?_append_right (by omega), List.getElem?_append_right (by omega), long]
        at other
      rw [List.getElem?_append_right (by omega), long]
      obtain ⟨place, sign⟩ := second.differ _ other
      refine ⟨List.mem_append_right _ (List.mem_map.mpr ⟨_, place, ?_⟩), sign⟩
      omega

end Resigned

theorem resigned_append_iff (within : ∀ place ∈ frontPlaces, place < front.length) :
    Resigned (frontPlaces ++ backPlaces.map (front.length + ·)) (front ++ back) bytes ↔
      ∃ before after, before ++ after = bytes ∧ Resigned frontPlaces front before ∧
        Resigned backPlaces back after := by
  constructor
  · intro resigned
    exact ⟨_, _, List.take_append_drop front.length bytes, resigned.take, resigned.drop within⟩
  · intro parts
    rcases parts with ⟨before, after, same, first, second⟩
    exact same ▸ first.append second

/-- No form is shorter than the written bytes, and those as short are these bytes up to signs in the
given places. -/
structure Tight (places : List Nat) (written : List UInt8) (form : Language UInt8) : Prop where
  within : ∀ place ∈ places, place < written.length
  least : ∀ bytes ∈ form, written.length ≤ bytes.length
  attained : ∀ bytes, bytes.length = written.length →
    (bytes ∈ form ↔ Resigned places written bytes)

namespace Tight

theorem exact (only : Against Eq written form) (member : written ∈ form) : Tight [] written form where
  within _ absent := absurd absent List.not_mem_nil
  least bytes bytesForm := by rw [only bytes bytesForm]
  attained bytes _ := by
    rw [resigned_nil_iff]
    constructor
    · exact fun bytesForm => (only bytes bytesForm).symm
    · intro same
      exact same ▸ member

theorem mul (first : Tight frontPlaces front frontForm) (second : Tight backPlaces back backForm) :
    Tight (frontPlaces ++ backPlaces.map (front.length + ·)) (front ++ back)
      (frontForm * backForm) where
  within place member := by
    rw [List.length_append]
    simp only [List.mem_append, List.mem_map] at member
    rcases member with member | ⟨behind, member, rfl⟩
    · have := first.within place member
      omega
    · have := second.within behind member
      omega
  least bytes member := by
    obtain ⟨before, beforeForm, after, afterForm, rfl⟩ := Language.mem_mul.mp member
    rw [List.length_append, List.length_append]
    exact Nat.add_le_add (first.least before beforeForm) (second.least after afterForm)
  attained bytes long := by
    rw [resigned_append_iff first.within, Language.mem_mul]
    constructor
    · intro parts
      rcases parts with ⟨before, beforeForm, after, afterForm, rfl⟩
      -- Neither part is shorter than what is written for it, so neither is longer.
      have beforeLeast := first.least before beforeForm
      have afterLeast := second.least after afterForm
      rw [List.length_append, List.length_append] at long
      exact ⟨before, after, rfl, (first.attained before (by omega)).mp beforeForm,
        (second.attained after (by omega)).mp afterForm⟩
    · intro parts
      rcases parts with ⟨before, after, rfl, beforeResigned, afterResigned⟩
      exact ⟨before, (first.attained before beforeResigned.length).mpr beforeResigned, after,
        (second.attained after afterResigned.length).mpr afterResigned, rfl⟩

theorem behind (first : Tight [] front frontForm) (second : Tight places back backForm) :
    Tight (places.map (front.length + ·)) (front ++ back) (frontForm * backForm) :=
  first.mul second

theorem before (first : Tight places front frontForm) (second : Tight [] back backForm) :
    Tight places (front ++ back) (frontForm * backForm) := by
  have both := first.mul second
  rwa [List.map_nil, List.append_nil] at both

end Tight

theorem variant_tight {index : Nat} (small : index < Nat.pow 256 4) :
    Tight [] (writeVariant index) (Form.unsigned 4 index) :=
  .exact (littleEndian_against 4 index) (littleEndian_mem small)

theorem length_tight {length : Nat} (fits : length < lengthLimit) :
    Tight [] (writeLength length) (Form.unsigned 8 length) :=
  .exact (littleEndian_against 8 length) (writeLength_mem fits)

theorem type_tight {type : EngineType} (fits : ∀ length ∈ type.lengths, length < lengthLimit) :
    Tight [] (writeType type) (Form.type type) :=
  .exact (writeType_against type) (writeType_mem type fits)

theorem text_tight {text : String} (fits : text.utf8ByteSize < lengthLimit) :
    Tight [] (writeText text) (Form.text text) :=
  .exact (writeText_against text) (writeText_mem fits)

theorem signed_known {sign : Int} (known : sign = -1 ∨ sign = 0 ∨ sign = 1) :
    Form.signed 1 sign = Form.unsigned 1 (Int8.ofInt sign).toUInt8.toNat := by
  have own : sign.sign = sign := by rcases known with rfl | rfl | rfl <;> decide
  have unsigned := signed_sign sign
  rwa [own] at unsigned

theorem eq_limbs_of_length {spelled : List UInt32} {n : Nat} (few : spelled.length = limbCount n)
    (same : Form.limbValue spelled = n) : spelled = limbs (limbCount n) n := by
  apply List.map_injective_iff.mpr fun _ _ => UInt32.toNat_inj.mp
  apply Nat.ofDigits_inj_of_len_eq (b := 2 ^ 32) (by decide)
  · rw [List.length_map, List.length_map, few, length_limbs]
  · exact lt_of_mem_map_toNat
  · exact lt_of_mem_map_toNat
  · exact same.trans (limbValue_limbs n).symm

def writeLimbs (value : Int) : List UInt8 :=
  writeList (fun limb : UInt32 => littleEndian 4 limb.toNat) (limbs (limbCount value.natAbs) value.natAbs)

/-- In a form of a wide integer that is as short as can be, only the sign is open. -/
theorem eq_of_mem_wideInt {value : Int} (member : bytes ∈ Form.wideInt value)
    (short : bytes.length = (writeHugeInt value).length) :
    ∃ sign : Int, (sign = -1 ∨ sign = 0 ∨ sign = 1) ∧ value = sign * value.natAbs ∧
      bytes = (Int8.ofInt sign).toUInt8 :: writeLimbs value := by
  obtain ⟨sign, spelled, known, same, member⟩ := member
  rw [Reader.signed_magnitude] at same
  obtain ⟨front, frontForm, back, backForm, rfl⟩ := Language.mem_mul.mp member
  have width : front.length = 1 := frontForm.1
  rw [← writeLimbs_against spelled back backForm, List.length_append, width, writeHugeInt,
    List.length_cons, length_writeLimbs, length_writeLimbs, length_limbs] at short
  have few : spelled.length = limbCount value.natAbs := by omega
  have magnitude : Form.limbValue spelled = value.natAbs := by
    by_cases zero : value = 0
    · rw [zero] at few ⊢
      rw [List.length_eq_zero_iff.mp few]
      rfl
    · rcases known with rfl | rfl | rfl <;> omega
  rw [signed_known known] at frontForm
  refine ⟨sign, known, ?_, ?_⟩
  · rw [← magnitude]
    exact same
  · rw [← littleEndian_against 1 _ front frontForm, ← writeLimbs_against spelled back backForm,
      eq_limbs_of_length few magnitude, littleEndian, littleEndian, UInt8.ofNat_toNat]
    rfl

/-- The sign of a zero is open, because no limb is left for it to bear on. -/
theorem zero_tight : Tight [0] (writeHugeInt 0) (Form.wideInt 0) where
  within _ member := by
    rw [List.mem_singleton.mp member]
    decide
  least := writeHugeInt_shorter 0
  attained bytes short := by
    have within : ∀ place ∈ [0], place < [(0 : UInt8)].length := by decide
    have zero : IsSign 0 := ⟨0, by decide⟩
    change bytes ∈ Form.wideInt 0 ↔
      Resigned ([0] ++ [].map ([(0 : UInt8)].length + ·)) ([0] ++ writeLimbs 0) bytes
    simp only [resigned_append_iff within, resigned_zero_iff zero, resigned_nil_iff]
    constructor
    · intro member
      obtain ⟨sign, known, _, rfl⟩ := eq_of_mem_wideInt member short
      exact ⟨_, _, rfl, ⟨_, ⟨sign, known, rfl⟩, rfl⟩, rfl⟩
    · intro parts
      rcases parts with ⟨_, _, rfl, ⟨_, ⟨sign, known, rfl⟩, rfl⟩, rfl⟩
      have signForm : [(Int8.ofInt sign).toUInt8] ∈ Form.signed 1 sign := by
        rw [signed_known known]
        exact ⟨rfl, Nat.ofDigits_singleton⟩
      have limbsForm : writeLimbs 0 ∈ Form.counted Form.limb [] :=
        writeList_mem (by decide) fun _ absent => absurd absent List.not_mem_nil
      refine ⟨sign, [], known, ?_, Language.append_mem_mul signForm limbsForm⟩
      rw [Reader.signed_magnitude]
      exact (mul_zero sign).symm

theorem nonzero_tight {value : Int} (nonzero : value ≠ 0)
    (fits : limbCount value.natAbs < lengthLimit) :
    Tight [] (writeHugeInt value) (Form.wideInt value) where
  within _ absent := absurd absent List.not_mem_nil
  least := writeHugeInt_shorter value
  attained bytes short := by
    rw [resigned_nil_iff]
    constructor
    · intro member
      obtain ⟨sign, known, same, rfl⟩ := eq_of_mem_wideInt member short
      have own : sign = value.sign := by
        rcases known with rfl | rfl | rfl
        · exact (Int.sign_eq_neg_one_of_neg (by omega)).symm
        · omega
        · exact (Int.sign_eq_one_of_pos (by omega)).symm
      rw [own]
      rfl
    · intro same
      exact same ▸ writeHugeInt_mem fits

theorem datum_tight {value : Datum} (fits : ∀ length ∈ value.lengths, length < lengthLimit) :
    Tight value.zeroSigns (writeDatum value) (Form.datum Form.wideInt value) := by
  by_cases wide : ∃ i, value = .hugeInt i
  · obtain ⟨i, rfl⟩ := wide
    have places : Tight (if i = 0 then [0] else []) (writeHugeInt i) (Form.wideInt i) := by
      split
      next zero => exact zero ▸ zero_tight
      next nonzero => exact nonzero_tight nonzero (fits _ List.mem_cons_self)
    have both := (variant_tight (by decide : 8 < _)).behind places
    have same : (Datum.hugeInt i).zeroSigns =
        (if i = 0 then [0] else []).map ((writeVariant 8).length + ·) := by
      rw [Datum.zeroSigns, apply_ite (List.map _)]
      simp [writeVariant, length_littleEndian]
    rw [same]
    exact both
  · have none : value.zeroSigns = [] := if_neg fun same => wide ⟨0, same⟩
    rw [none]
    exact .exact (writeDatum_against piecewise_eq value fun i same => absurd ⟨i, same⟩ wide)
      (writeDatum_mem (fun _ => writeHugeInt_mem) value fits)

mutual

theorem expr_tight (expr : EngineExpr) (fits : ∀ length ∈ expr.lengths, length < lengthLimit) :
    Tight expr.zeroSigns (writeExpr expr) (Form.expr Form.wideInt expr) := by
  cases expr with
  | constant type value vector =>
      simp only [EngineExpr.lengths, List.forall_mem_append] at fits
      rcases fits with ⟨⟨typeFits, valueFits⟩, vectorFits⟩
      have vectorTight : Tight [] _ _ := .exact (writeVector_against vector) (writeVector_mem vectorFits)
      have tight := (variant_tight (by decide : 0 < _)).behind
        ((type_tight typeFits).behind ((datum_tight valueFits).before vectorTight))
      rw [Form.expr, writeExpr, EngineExpr.zeroSigns, List.append_assoc, List.append_assoc]
      simpa [writeVariant, length_littleEndian, Function.comp_def, Nat.add_assoc] using tight
  | call type inputs function =>
      simp only [EngineExpr.lengths, List.cons_append, List.forall_mem_cons,
        List.forall_mem_append] at fits
      rcases fits with ⟨inputsFit, functionFits, typeFits, partsFit⟩
      have tight := (variant_tight (by decide : 1 < _)).behind
        ((type_tight typeFits).behind (((length_tight inputsFit).behind
          (exprs_tight inputs partsFit)).before (text_tight functionFits)))
      rw [Form.expr_call, writeExpr, EngineExpr.zeroSigns, List.append_assoc, List.append_assoc]
      simpa [Form.counted, writeVariant, writeLength, length_littleEndian, Function.comp_def,
        Nat.add_assoc] using tight
  | fieldAccess type field =>
      simp only [EngineExpr.lengths, List.forall_mem_cons] at fits
      rcases fits with ⟨fieldFits, typeFits⟩
      have tight := (variant_tight (by decide : 2 < _)).behind
        ((type_tight typeFits).behind (text_tight fieldFits))
      rw [Form.expr, writeExpr, EngineExpr.zeroSigns, List.append_assoc]
      exact tight
termination_by structural expr

theorem exprs_tight (exprs : List EngineExpr)
    (fit : ∀ length ∈ EngineExpr.lengthsOfAll exprs, length < lengthLimit) :
    Tight (EngineExpr.zeroSignsOfAll exprs) (writeExprs exprs)
      (Form.sequence (Form.expr Form.wideInt) exprs) := by
  cases exprs with
  | nil =>
      apply Tight.exact
      · exact fun bytes empty => empty.symm
      · rfl
  | cons expr rest =>
      rw [EngineExpr.lengthsOfAll, List.forall_mem_append] at fit
      exact (expr_tight expr fit.1).mul (exprs_tight rest fit.2)
termination_by structural exprs

end

end Wire

namespace EngineExpr

/-- Of the byte strings as long as the bytes of an expression, those are read as it that differ from
its bytes in nothing but signs of wide zeros. -/
theorem ofBytes_overwritten {expr : EngineExpr} {bytes : List UInt8}
    (same : bytes.length = expr.toBytes.length) :
    (ofBytes bytes = .ok expr ↔
      (∀ length ∈ expr.lengths, length < lengthLimit) ∧
        Resigned expr.zeroSigns expr.toBytes bytes) ∧
    (.hugeInt 0 ∉ expr.constants → bytes ≠ expr.toBytes → ofBytes bytes ≠ .ok expr) := by
  have known : ofBytes bytes = .ok expr ↔
      (∀ length ∈ expr.lengths, length < lengthLimit) ∧
        Resigned expr.zeroSigns expr.toBytes bytes := by
    constructor
    · intro answered
      obtain ⟨rest, read⟩ := ofBytes_eq_ok_iff.mp answered
      obtain ⟨consumed, form, rfl⟩ := readExpr_eq_ok_iff.mp read
      have fits := expr_lengths_lt expr consumed form
      have tight := expr_tight expr fits
      -- The form takes all of the bytes, because it is no shorter than what is written.
      have least : expr.toBytes.length ≤ consumed.length := tight.least consumed form
      rw [List.length_append] at same
      have nothing : rest = [] := List.length_eq_zero_iff.mp (by omega)
      rw [nothing, List.append_nil]
      exact ⟨fits, (tight.attained consumed (by rw [nothing] at same; exact same)).mp form⟩
    · intro spelled
      exact ofBytes_of_mem (((expr_tight expr spelled.1).attained bytes same).mpr spelled.2)
  refine ⟨known, fun nonzero other read => other ?_⟩
  have resigned := (known.mp read).2
  rw [zeroSigns_eq_nil expr nonzero] at resigned
  exact resigned_nil_iff.mp resigned

def zeroAndFive : EngineExpr :=
  call .boolean [constant .bigInt (.hugeInt 0) none, constant .bigInt (.hugeInt 5) none] "<"

/-- The zero may be given the sign of a negative number, and the five may not. -/
theorem ofBytes_overwritten_zeroAndFive :
    (zeroAndFive.toBytes.set 28 255).length = zeroAndFive.toBytes.length ∧
      Resigned [28] zeroAndFive.toBytes (zeroAndFive.toBytes.set 28 255) ∧
      (zeroAndFive.toBytes.set 50 255).length = zeroAndFive.toBytes.length ∧
      ofBytes (zeroAndFive.toBytes.set 50 255) ≠ .ok zeroAndFive := by
  have zero : ofBytes (zeroAndFive.toBytes.set 28 255) = .ok zeroAndFive := rfl
  have resigned := ((ofBytes_overwritten List.length_set).1.mp zero).2
  refine ⟨List.length_set, resigned, List.length_set, fun five => ?_⟩
  have differ := ((ofBytes_overwritten List.length_set).1.mp five).2.differ 50 (by decide)
  exact absurd differ.1 (by decide)

end EngineExpr
end ScalarLowering
