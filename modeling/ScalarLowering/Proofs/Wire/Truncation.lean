import ScalarLowering.Proofs.Wire.Layout
import ScalarLowering.Proofs.Wire.RoundTrip

/-!
A byte form that is cut short is refused, wherever it is cut. A reader takes the pieces of its layout
one after the other, so it stops at the piece that is cut, with the fault of an input that is short of
that piece.
-/

namespace ScalarLowering.Wire

namespace Reader

open Layout

variable {α β : Type} {bound : Nat} {reader : Reader α} {next : α → Reader β}
  {front back layout : List Piece} {form : Language UInt8} {value : α}

/-- The bytes of a layout are refused when any of them are cut off. -/
def Stops (bound : Nat) (reader : Reader α) (layout : List Piece) : Prop :=
  (bytes layout).length ≤ bound → ∀ count fault, faultAt layout count = some fault →
    reader ((bytes layout).take count) = .error fault

theorem Takes.of_mem {bytes : List UInt8} (takes : Takes bound reader form value)
    (member : bytes ∈ form) : Takes bound reader {bytes} value := by
  intro front same short rest
  cases same
  exact takes bytes member short rest

namespace Stops

theorem head (stops : Stops bound reader layout) : Stops bound (reader >>= next) layout := by
  intro short count fault cut
  exact bind_eq_error.mpr (.inl (stops short count fault cut))

theorem map {f : α → β} (stops : Stops bound reader layout) : Stops bound (f <$> reader) layout := by
  rw [← bind_pure_comp]
  exact stops.head

/-- A cut behind the front leaves the front to be read as it is. -/
theorem bind (reads : Takes bound reader {bytes front} value) (first : Stops bound reader front)
    (second : Stops bound (next value) back) : Stops bound (reader >>= next) (front ++ back) := by
  intro short count fault cut
  rw [bytes_append, List.length_append] at short
  rw [faultAt_append] at cut
  rw [bytes_append, List.take_append]
  by_cases within : count < (bytes front).length
  · rw [if_pos within] at cut
    rw [Nat.sub_eq_zero_of_le within.le, List.take_zero, List.append_nil]
    exact bind_eq_error.mpr (.inl (first (by omega) count fault cut))
  · rw [if_neg within] at cut
    rw [List.take_of_length_le (Nat.le_of_not_lt within)]
    exact bind_eq_error.mpr (.inr ⟨value, _, reads _ rfl (by omega) _,
      second (by omega) _ fault cut⟩)

theorem nil : Stops bound reader [] := by
  intro _ count fault cut
  contradiction

theorem zero : Stops 0 reader layout := by
  intro short count fault cut
  have within := lt_of_faultAt cut
  omega

theorem many {items : List α} {layout : α → List Piece}
    (reads : ∀ value ∈ items, Takes bound reader {bytes (layout value)} value)
    (stops : ∀ value ∈ items, Stops bound reader (layout value)) :
    Stops bound (many reader items.length) (items.flatMap layout) := by
  induction items with
  | nil => exact nil
  | cons first others induction =>
      rw [List.forall_mem_cons] at reads stops
      exact bind reads.1 stops.1 (induction reads.2 stops.2).head

end Stops

theorem fixed_take_eq_error {width count : Nat} (bytes : List UInt8) (fewer : count < width) :
    fixed width (bytes.take count) = .error .endOfInput := by
  rw [fixed, ← bind_pure_comp]
  apply bind_eq_error.mpr (.inl (take_eq_error _))
  rw [List.length_take]
  exact (Nat.min_le_left _ _).trans_lt fewer

theorem fixed_stops (width code : Nat) : Stops bound (fixed width) (number width code) := by
  intro _ count fault cut
  obtain ⟨within, rfl⟩ := faultAt_single.mp cut
  rw [Piece.bytes, length_littleEndian] at within
  exact fixed_take_eq_error _ within

theorem fixed_reads {width code : Nat} (fits : code < Nat.pow 256 width) :
    Takes bound (fixed width) {bytes (number width code)} code := by
  rw [bytes_number]
  exact (fixed_takes width code).of_mem (littleEndian_mem fits)

theorem word32_stops (code : Nat) : Stops bound word32 (number 4 code) := (fixed_stops 4 code).map

theorem word32_reads (word : UInt32) :
    Takes bound word32 {bytes (number 4 word.toNat)} word := by
  rw [bytes_number]
  exact (word32_takes_toNat word).of_mem (littleEndian_mem word.toNat_lt)

theorem octet_stops (byte : UInt8) : Stops bound octet (Layout.octet byte) := by
  intro _ count fault cut
  obtain ⟨within, rfl⟩ := faultAt_single.mp cut
  have none : count = 0 := Nat.lt_one_iff.mp within
  rw [none]
  rfl

theorem octet_reads (byte : UInt8) : Takes bound octet {bytes (Layout.octet byte)} byte :=
  (octet_takes byte).of_mem ⟨rfl, Nat.ofDigits_singleton⟩

/-- A text is refused at its length or at its body, whichever is cut. -/
theorem text_stops {value : String} (fits : value.utf8ByteSize < lengthLimit) :
    Stops bound text (Layout.text value) := by
  rw [← Utf8.length_encode] at fits
  intro _ count fault cut
  obtain ⟨within, rfl⟩ := faultAt_single.mp cut
  rw [Piece.bytes, writeText, List.length_append, writeLength, length_littleEndian] at within
  rw [bytes_text, writeText, List.take_append, writeLength, length_littleEndian, Piece.faultAt]
  split
  next early =>
    rw [Nat.sub_eq_zero_of_le early.le, List.take_zero, List.append_nil]
    exact bind_eq_error.mpr (.inl (fixed_take_eq_error _ early))
  next late =>
    rw [List.take_of_length_le (by rw [length_littleEndian]; omega)]
    have lengthTakes : Takes 8 length (Form.unsigned 8 _) (Utf8.encode value).length :=
      fixed_takes 8 _
    have lengthRead := lengthTakes _ (littleEndian_mem fits) (length_littleEndian 8 _).le
    apply bind_eq_error.mpr (.inr ⟨_, _, lengthRead _, _⟩)
    apply bind_eq_error.mpr (.inl (take_eq_error _))
    rw [List.length_take]
    omega

theorem text_reads {value : String} (fits : value.utf8ByteSize < lengthLimit) :
    Takes bound text {bytes (Layout.text value)} value := by
  rw [bytes_text]
  exact (text_takes value).of_mem (writeText_mem fits)

section Lists

variable {items : List α} {layout : α → List Piece} (fits : items.length < lengthLimit)
  (reads : ∀ value ∈ items, Takes bound reader {bytes (layout value)} value)

include fits reads

theorem list_stops (stops : ∀ value ∈ items, Stops bound reader (layout value)) :
    Stops bound (list reader) (counted layout items) :=
  .bind (fixed_reads fits) (fixed_stops 8 _) (.many reads stops)

theorem list_reads : Takes bound (list reader) {bytes (counted layout items)} items := by
  rw [bytes_counted]
  exact (list_takes reads).of_mem (writeList_mem fits fun _ _ => rfl)

end Lists

theorem sign_reads (value : Int) :
    Takes bound sign {bytes (Layout.octet (Int8.ofInt value.sign).toUInt8)}
      (Int8.ofInt value.sign) := by
  have known : Int8.ofInt value.sign = -1 ∨ Int8.ofInt value.sign = 0 ∨
      Int8.ofInt value.sign = 1 := by
    rcases sign_known value with same | same | same <;> rw [same] <;> decide
  apply (sign_takes known).of_mem
  rw [Form.signed_int8]
  exact ⟨rfl, Nat.ofDigits_singleton⟩

theorem hugeInt_stops {value : Int} (fits : limbCount value.natAbs < lengthLimit) :
    Stops bound hugeInt (wideInt value) := by
  have limbsStop : Stops bound (list word32) (counted (fun limb : UInt32 => number 4 limb.toNat)
      (limbs (limbCount value.natAbs) value.natAbs)) := by
    apply list_stops
    · rwa [length_limbs]
    · exact fun limb _ => word32_reads limb
    · exact fun limb _ => word32_stops limb.toNat
  exact .bind (sign_reads value) (octet_stops _).head limbsStop.head

theorem vector_stops {vector : Option (List UInt8)}
    (fits : ∀ length ∈ vector.toList.map List.length, length < lengthLimit) :
    Stops bound (option (list octet)) (optional (counted Layout.octet) vector) := by
  cases vector with
  | none => exact (octet_stops 0).head
  | some held =>
      have heldStops : Stops bound (list octet) (counted Layout.octet held) :=
        list_stops (fits _ List.mem_cons_self) (fun byte _ => octet_reads byte)
          fun byte _ => octet_stops byte
      exact .bind (octet_reads 1) (octet_stops 1) heldStops.map

section Variants

variable {next : UInt32 → Reader β} {code : Nat}

theorem variant_reads (small : code < Nat.pow 256 4) :
    Takes bound word32 {bytes (number 4 code)} (UInt32.ofNat code) :=
  (fixed_reads small).map

theorem variant_stops (small : code < Nat.pow 256 4)
    (after : Stops bound (next (UInt32.ofNat code)) back) :
    Stops (bound + 1) (word32 >>= next) (number 4 code ++ back) := by
  intro short
  apply Stops.bind (variant_reads small) (word32_stops code) _ short
  rw [bytes_append, bytes_number, List.length_append, length_littleEndian] at short
  exact fun _ => after (by omega)

end Variants

theorem type_reads {budget : Nat} {dataType : EngineType}
    (fits : ∀ length ∈ dataType.lengths, length < lengthLimit) :
    Takes budget (type budget) {bytes (Layout.type dataType)} dataType := by
  rw [bytes_type]
  exact (type_takes budget dataType).of_mem (writeType_mem dataType fits)

theorem type_stops (budget : Nat) (dataType : EngineType)
    (fits : ∀ length ∈ dataType.lengths, length < lengthLimit) :
    Stops budget (type budget) (Layout.type dataType) := by
  induction budget generalizing dataType with
  | zero => exact .zero
  | succ budget induction =>
      cases dataType with
      | boolean | integer | bigInt | varChar | timestamp =>
          rw [Layout.type]
          exact (word32_stops _).head
      | decimal precision scale =>
          rw [Layout.type]
          apply variant_stops (by decide)
          exact .bind (word32_reads precision) (word32_stops _) (word32_stops _).head
      | row names types =>
          simp only [EngineType.lengths, EngineType.lengthsOfAll_eq_flatMap, List.cons_append,
            List.forall_mem_cons, List.forall_mem_append, List.forall_mem_map,
            List.forall_mem_flatMap] at fits
          rcases fits with ⟨namesFit, typesFit, textsFit, partsFit⟩
          have namesRead : Takes budget (list text) {bytes (counted Layout.text names)} names :=
            list_reads namesFit fun name member => text_reads (textsFit name member)
          have namesStop : Stops budget (list text) (counted Layout.text names) :=
            list_stops namesFit (fun name member => text_reads (textsFit name member))
              fun name member => text_stops (textsFit name member)
          have typesStop : Stops budget (list (type budget)) (counted Layout.type types) :=
            list_stops typesFit (fun part member => type_reads (partsFit part member))
              fun part member => induction part (partsFit part member)
          rw [Layout.type_row]
          apply variant_stops (by decide)
          exact .bind namesRead namesStop typesStop.head

theorem datum_stops {value : Datum} (fits : ∀ length ∈ value.lengths, length < lengthLimit) :
    Stops bound datum (Layout.datum value) := by
  cases value with
  | boolean value =>
      exact .bind (variant_reads (by decide)) (word32_stops 0) (octet_stops _).head.map
  | tinyInt value => exact .bind (variant_reads (by decide)) (word32_stops 1) (fixed_stops 1 _).map
  | smallInt value => exact .bind (variant_reads (by decide)) (word32_stops 2) (fixed_stops 2 _).map
  | integer value => exact .bind (variant_reads (by decide)) (word32_stops 3) (fixed_stops 4 _).map
  | bigInt value => exact .bind (variant_reads (by decide)) (word32_stops 4) (fixed_stops 8 _).map
  | double value => exact .bind (variant_reads (by decide)) (word32_stops 5) (fixed_stops 8 _).map
  | varChar value =>
      have textStops : Stops bound text (Layout.text value) :=
        text_stops (fits _ List.mem_cons_self)
      exact .bind (variant_reads (by decide)) (word32_stops 6) textStops.map
  | varBinary value =>
      have textStops : Stops bound text (Layout.text value) :=
        text_stops (fits _ List.mem_cons_self)
      exact .bind (variant_reads (by decide)) (word32_stops 7) textStops.map
  | hugeInt value =>
      have wideStops : Stops bound hugeInt (wideInt value) :=
        hugeInt_stops (fits _ List.mem_cons_self)
      exact .bind (variant_reads (by decide)) (word32_stops 8) wideStops.map

theorem datum_reads {value : Datum} (fits : ∀ length ∈ value.lengths, length < lengthLimit) :
    Takes bound datum {bytes (Layout.datum value)} value := by
  rw [bytes_datum]
  exact (datum_takes value).of_mem (writeDatum_mem (fun _ => writeHugeInt_mem) value fits)

theorem expr_reads {budget : Nat} {tree : EngineExpr}
    (fits : ∀ length ∈ tree.lengths, length < lengthLimit) :
    Takes budget (expr budget) {bytes (Layout.expr tree)} tree := by
  rw [bytes_expr]
  exact (expr_takes budget tree).of_mem (writeExpr_mem (fun _ => writeHugeInt_mem) tree fits)

theorem expr_stops (budget : Nat) (tree : EngineExpr)
    (fits : ∀ length ∈ tree.lengths, length < lengthLimit) :
    Stops budget (expr budget) (Layout.expr tree) := by
  induction budget generalizing tree with
  | zero => exact .zero
  | succ budget induction =>
      cases tree with
      | constant dataType value vector =>
          simp only [EngineExpr.lengths, List.forall_mem_append] at fits
          rcases fits with ⟨⟨typeFits, valueFits⟩, vectorFits⟩
          rw [Layout.expr]
          apply variant_stops (by decide)
          apply Stops.bind (type_reads typeFits) (type_stops budget dataType typeFits)
          exact .bind (datum_reads valueFits) (datum_stops valueFits) (vector_stops vectorFits).head
      | call dataType inputs function =>
          simp only [EngineExpr.lengths, EngineExpr.lengthsOfAll_eq_flatMap, List.cons_append,
            List.forall_mem_cons, List.forall_mem_append, List.forall_mem_flatMap] at fits
          rcases fits with ⟨inputsFit, functionFits, typeFits, partsFit⟩
          have inputsRead : Takes budget (list (expr budget)) {bytes (counted Layout.expr inputs)}
              inputs :=
            list_reads inputsFit fun input member => expr_reads (partsFit input member)
          have inputsStop : Stops budget (list (expr budget)) (counted Layout.expr inputs) :=
            list_stops inputsFit (fun input member => expr_reads (partsFit input member))
              fun input member => induction input (partsFit input member)
          rw [Layout.expr_call]
          apply variant_stops (by decide)
          apply Stops.bind (type_reads typeFits) (type_stops budget dataType typeFits)
          exact .bind inputsRead inputsStop (text_stops functionFits).head
      | fieldAccess dataType field =>
          simp only [EngineExpr.lengths, List.forall_mem_cons] at fits
          rcases fits with ⟨fieldFits, typeFits⟩
          rw [Layout.expr]
          apply variant_stops (by decide)
          exact .bind (type_reads typeFits) (type_stops budget dataType typeFits)
            (text_stops fieldFits).head

end Reader

/-- A cut input comes with a smaller budget, which gives the same on it. -/
theorem readExpr_take {tree : EngineExpr} (fits : ∀ length ∈ tree.lengths, length < lengthLimit)
    {count : Nat} {fault : Fault} (cut : Layout.faultAt (Layout.expr tree) count = some fault) :
    readExpr ((writeExpr tree).take count) = .error fault := by
  have within := Layout.lt_of_faultAt cut
  rw [Layout.bytes_expr] at within
  have stops := Reader.expr_stops (writeExpr tree).length tree fits
  rw [Reader.Stops, Layout.bytes_expr] at stops
  have stopped := stops (Nat.le_refl _) count fault cut
  have larger := Reader.expr_agree count ((writeExpr tree).length - count)
    ((writeExpr tree).take count) (List.length_take_le ..)
  rw [Nat.add_sub_cancel' within.le, stopped] at larger
  rw [readExpr, List.length_take_of_le within.le]
  exact larger

end ScalarLowering.Wire

namespace ScalarLowering.EngineExpr

open Wire

/-- Whatever is cut off from the bytes of an expression is missed, and missed as what it is a part of.
Lists and texts that a memory holds are shorter than `lengthLimit`, so that their lengths fit. -/
theorem ofBytes_take {expr : EngineExpr} (fits : ∀ length ∈ expr.lengths, length < lengthLimit)
    {count : Nat} (cut : count < expr.toBytes.length) :
    Layout.bytes (Layout.expr expr) = expr.toBytes ∧
    ∃ fault, ofBytes (expr.toBytes.take count) = .error (.unreadable fault) ∧ fault.EndsShort ∧
      (fault.message = "io error: " ↔ Layout.WithinText (Layout.expr expr) count) ∧
      (fault.message = "io error: unexpected end of file" ↔
        ¬ Layout.WithinText (Layout.expr expr) count) := by
  have laid : Layout.bytes (Layout.expr expr) = expr.toBytes := Layout.bytes_expr expr
  rw [← laid] at cut
  obtain ⟨fault, faultAt⟩ := Layout.exists_faultAt cut
  have short := Layout.endsShort_of_faultAt faultAt
  refine ⟨laid, fault, ofBytes_eq_error_iff.mpr (readExpr_take fits faultAt), short, ?_, ?_⟩
  all_goals
    rw [← Layout.faultAt_eq_shortText_iff, faultAt, Option.some_inj]
    cases short <;> decide

def accented : EngineExpr :=
  call (.row ["a"] []) [constant .bigInt (.hugeInt 5) (some [7, 8])] "é"

/-- The last byte of the vector is missing, and then the last byte of the last character. -/
theorem ofBytes_take_accented :
    (∀ length ∈ accented.lengths, length < lengthLimit) ∧ accented.toBytes.length = 87 ∧
    (∃ fault, ofBytes (accented.toBytes.take 76) = .error (.unreadable fault) ∧
      fault.message = "io error: unexpected end of file") ∧
    ∃ fault, ofBytes (accented.toBytes.take 86) = .error (.unreadable fault) ∧
      fault.message = "io error: " := by
  have fits : ∀ length ∈ accented.lengths, length < lengthLimit := by decide
  have long : accented.toBytes.length = 87 := rfl
  obtain ⟨_, inVector, missed, _, _, other⟩ := ofBytes_take fits (by rw [long]; decide : 76 < _)
  obtain ⟨_, inText, missedText, _, text, _⟩ := ofBytes_take fits (by rw [long]; decide : 86 < _)
  refine ⟨fits, long, ⟨inVector, missed, other.mpr ?_⟩, inText, missedText, text.mpr ?_⟩
  · rw [← Layout.faultAt_eq_shortText_iff]
    decide
  · rw [← Layout.faultAt_eq_shortText_iff]
    decide

end ScalarLowering.EngineExpr
