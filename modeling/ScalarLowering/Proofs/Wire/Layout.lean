import ScalarLowering.Proofs.Wire.Continuation

/-!
Where the texts of an expression lie in its byte form. A byte form is laid out in pieces: fields of
fixed width, and texts behind their lengths. An input that ends within the body of a text is too short
in another way than one that ends anywhere else.
-/

namespace ScalarLowering.Wire

/-- A part of a byte form. -/
inductive Piece where
  | field (bytes : List UInt8)
  | text (value : String)

namespace Piece

def bytes : Piece → List UInt8
  | .field bytes => bytes
  | .text value => writeText value

/-- The fault of an input that ends after some bytes of the piece. The length of a text is a field like
any other. -/
def faultAt : Piece → (count : Nat) → Fault
  | .field _, _ => .endOfInput
  | .text _, count => if count < 8 then .endOfInput else .shortText

theorem endsShort_faultAt (piece : Piece) (count : Nat) : (piece.faultAt count).EndsShort := by
  cases piece with
  | field bytes => exact .endOfInput
  | text value =>
      rw [faultAt]
      split
      · exact .endOfInput
      · exact .shortText

theorem faultAt_eq_shortText_iff {piece : Piece} {count : Nat} :
    piece.faultAt count = .shortText ↔ 8 ≤ count ∧ ∃ value, piece = .text value := by
  cases piece with
  | field bytes => simp [faultAt]
  | text value => simp [faultAt]

end Piece

namespace Layout

variable {α : Type}

def number (width value : Nat) : List Piece := [.field (littleEndian width value)]

def octet (byte : UInt8) : List Piece := [.field [byte]]

def text (value : String) : List Piece := [.text value]

def counted (layout : α → List Piece) (items : List α) : List Piece :=
  number 8 items.length ++ items.flatMap layout

def optional (layout : α → List Piece) : Option α → List Piece
  | none => octet 0
  | some value => octet 1 ++ layout value

def wideInt (value : Int) : List Piece :=
  octet (Int8.ofInt value.sign).toUInt8 ++
    counted (fun limb : UInt32 => number 4 limb.toNat) (limbs (limbCount value.natAbs) value.natAbs)

mutual

def type : EngineType → List Piece
  | .boolean => number 4 0
  | .integer => number 4 1
  | .bigInt => number 4 2
  | .varChar => number 4 3
  | .timestamp => number 4 4
  | .decimal precision scale =>
      number 4 5 ++ (number 4 precision.toNat ++ number 4 scale.toUInt32.toNat)
  | .row names types =>
      number 4 6 ++ (counted text names ++ (number 8 types.length ++ typesOfAll types))
termination_by structural type => type

def typesOfAll : List EngineType → List Piece
  | [] => []
  | first :: rest => type first ++ typesOfAll rest
termination_by structural types => types

end

def datum : Datum → List Piece
  | .boolean value => number 4 0 ++ octet (if value then 1 else 0)
  | .tinyInt value => number 4 1 ++ number 1 value.toUInt8.toNat
  | .smallInt value => number 4 2 ++ number 2 value.toUInt16.toNat
  | .integer value => number 4 3 ++ number 4 value.toUInt32.toNat
  | .bigInt value => number 4 4 ++ number 8 value.toUInt64.toNat
  | .double value => number 4 5 ++ number 8 value.bits.toNat
  | .varChar value => number 4 6 ++ text value
  | .varBinary value => number 4 7 ++ text value
  | .hugeInt value => number 4 8 ++ wideInt value

mutual

def expr : EngineExpr → List Piece
  | .constant dataType value vector =>
      number 4 0 ++ (type dataType ++ (datum value ++ optional (counted octet) vector))
  | .call dataType inputs function =>
      number 4 1 ++ (type dataType ++
        ((number 8 inputs.length ++ exprsOfAll inputs) ++ text function))
  | .fieldAccess dataType field => number 4 2 ++ (type dataType ++ text field)
termination_by structural expr => expr

def exprsOfAll : List EngineExpr → List Piece
  | [] => []
  | first :: rest => expr first ++ exprsOfAll rest
termination_by structural exprs => exprs

end

def bytes (layout : List Piece) : List UInt8 := layout.flatMap Piece.bytes

/-- The fault of an input that ends after some bytes. There is none if it does not end before the
layout does. -/
def faultAt : List Piece → (count : Nat) → Option Fault
  | [], _ => none
  | piece :: rest, count =>
      if count < piece.bytes.length then some (piece.faultAt count)
      else faultAt rest (count - piece.bytes.length)

/-- After some bytes the eight of the length of a text are complete, and its body is not. -/
def WithinText (layout : List Piece) (count : Nat) : Prop :=
  ∃ before value after, layout = before ++ .text value :: after ∧
    (bytes before).length + 8 ≤ count ∧ count < (bytes before).length + (writeText value).length

section Pieces

variable {front back layout : List Piece} {count : Nat} {fault : Fault}

@[simp] theorem bytes_nil : bytes [] = [] := rfl

@[simp] theorem bytes_cons (piece : Piece) (rest : List Piece) :
    bytes (piece :: rest) = piece.bytes ++ bytes rest := rfl

@[simp] theorem bytes_append (front back : List Piece) :
    bytes (front ++ back) = bytes front ++ bytes back := List.flatMap_append

theorem bytes_flatMap (layout : α → List Piece) (items : List α) :
    bytes (items.flatMap layout) = items.flatMap fun item => bytes (layout item) :=
  List.flatMap_assoc

@[simp] theorem bytes_number (width value : Nat) :
    bytes (number width value) = littleEndian width value := List.append_nil _

@[simp] theorem bytes_octet (byte : UInt8) : bytes (octet byte) = [byte] := rfl

theorem faultAt_single {piece : Piece} :
    faultAt [piece] count = some fault ↔
      count < piece.bytes.length ∧ piece.faultAt count = fault := by
  rw [faultAt, faultAt]
  split <;> simp_all

theorem faultAt_append : faultAt (front ++ back) count =
    if count < (bytes front).length then faultAt front count
      else faultAt back (count - (bytes front).length) := by
  induction front generalizing count with
  | nil => rfl
  | cons piece rest induction =>
      rw [List.cons_append, faultAt, faultAt, induction, bytes_cons, List.length_append]
      by_cases within : count < piece.bytes.length
      · rw [if_pos within, if_pos within, if_pos (by omega)]
      · rw [if_neg within, if_neg within, Nat.sub_sub]
        exact if_congr (by omega) rfl rfl

theorem exists_faultAt (short : count < (bytes layout).length) :
    ∃ fault, faultAt layout count = some fault := by
  induction layout generalizing count with
  | nil => contradiction
  | cons piece rest induction =>
      rw [bytes_cons, List.length_append] at short
      rw [faultAt]
      split
      next within => exact ⟨_, rfl⟩
      next beyond => exact induction (by omega)

theorem lt_of_faultAt (cut : faultAt layout count = some fault) : count < (bytes layout).length := by
  induction layout generalizing count with
  | nil => contradiction
  | cons piece rest induction =>
      rw [bytes_cons, List.length_append]
      rw [faultAt] at cut
      split at cut
      next within => omega
      next beyond =>
        have inRest := induction cut
        omega

theorem endsShort_of_faultAt (cut : faultAt layout count = some fault) : fault.EndsShort := by
  induction layout generalizing count with
  | nil => contradiction
  | cons piece rest induction =>
      rw [faultAt] at cut
      split at cut
      next within =>
        cases cut
        exact piece.endsShort_faultAt count
      next beyond => exact induction cut

theorem withinText_cons {piece : Piece} : WithinText (piece :: layout) count ↔
    (count < piece.bytes.length ∧ piece.faultAt count = .shortText) ∨
      (piece.bytes.length ≤ count ∧ WithinText layout (count - piece.bytes.length)) := by
  rw [Piece.faultAt_eq_shortText_iff]
  constructor
  · rintro ⟨before, value, after, same, reached, ends⟩
    cases before with
    | nil =>
        cases same
        rw [bytes_nil, List.length_nil, Nat.zero_add] at reached ends
        exact .inl ⟨ends, reached, value, rfl⟩
    | cons first others =>
        cases same
        rw [bytes_cons, List.length_append] at reached ends
        exact .inr ⟨by omega, others, value, after, rfl, by omega, by omega⟩
  · rintro (⟨within, reached, value, rfl⟩ | ⟨beyond, before, value, after, rfl, reached, ends⟩)
    · rw [Piece.bytes] at within
      exact ⟨[], value, layout, rfl, by simpa using reached, by simpa using within⟩
    · refine ⟨piece :: before, value, after, rfl, ?_, ?_⟩ <;>
        rw [bytes_cons, List.length_append] <;> omega

theorem faultAt_eq_shortText_iff :
    faultAt layout count = some .shortText ↔ WithinText layout count := by
  induction layout generalizing count with
  | nil => simp [faultAt, WithinText]
  | cons piece rest induction =>
      rw [faultAt, withinText_cons, ← induction]
      split
      next within => simp [within, Nat.not_le.mpr within]
      next beyond => simp [beyond, Nat.le_of_not_lt beyond]

end Pieces

theorem type_row (names : List String) (types : List EngineType) :
    type (.row names types) = number 4 6 ++ (counted text names ++ counted type types) := by
  have parts : typesOfAll types = types.flatMap type := by
    induction types with
    | nil => rfl
    | cons first rest induction => rw [typesOfAll, List.flatMap_cons, induction]
  rw [type, parts]
  rfl

theorem expr_call (dataType : EngineType) (inputs : List EngineExpr) (function : String) :
    expr (.call dataType inputs function) =
      number 4 1 ++ (type dataType ++ (counted expr inputs ++ text function)) := by
  have parts : exprsOfAll inputs = inputs.flatMap expr := by
    induction inputs with
    | nil => rfl
    | cons first rest induction => rw [exprsOfAll, List.flatMap_cons, induction]
  rw [expr, parts]
  rfl

@[simp] theorem bytes_text (value : String) : bytes (text value) = writeText value :=
  List.append_nil _

@[simp] theorem bytes_counted (layout : α → List Piece) (items : List α) :
    bytes (counted layout items) = writeList (fun item => bytes (layout item)) items := by
  rw [counted, bytes_append, bytes_number, bytes_flatMap]
  rfl

@[simp] theorem bytes_optional (layout : α → List Piece) (value : Option α) :
    bytes (optional layout value) = writeOption (fun item => bytes (layout item)) value := by
  cases value with
  | none => rfl
  | some held => rw [optional, bytes_append, bytes_octet, writeOption, List.singleton_append]

@[simp] theorem bytes_wideInt (value : Int) : bytes (wideInt value) = writeHugeInt value := by
  simp only [wideInt, bytes_append, bytes_octet, bytes_counted, bytes_number, List.singleton_append]
  rfl

mutual

@[simp] theorem bytes_type (dataType : EngineType) : bytes (type dataType) = writeType dataType := by
  cases dataType with
  | boolean | integer | bigInt | varChar | timestamp => exact bytes_number 4 _
  | decimal precision scale =>
      rw [type, writeType, bytes_append, bytes_append, bytes_number, bytes_number, bytes_number,
        List.append_assoc]
      rfl
  | row names types =>
      rw [type, writeType, bytes_append, bytes_append, bytes_append, bytes_number, bytes_number,
        bytes_counted, bytes_typesOfAll types, List.append_assoc, List.append_assoc]
      simp only [bytes_text]
      rfl
termination_by structural dataType

theorem bytes_typesOfAll (types : List EngineType) :
    bytes (typesOfAll types) = writeTypes types := by
  cases types with
  | nil => rfl
  | cons first rest =>
      rw [typesOfAll, writeTypes, bytes_append, bytes_type first, bytes_typesOfAll rest]
termination_by structural types

end

@[simp] theorem bytes_datum (value : Datum) : bytes (datum value) = writeDatum value := by
  cases value with
  | boolean value => cases value <;> rfl
  | tinyInt | smallInt | integer | bigInt | double | varChar | varBinary | hugeInt =>
      simp only [datum, writeDatum, writeVariant, bytes_append, bytes_number, bytes_text,
        bytes_wideInt]

mutual

@[simp] theorem bytes_expr (tree : EngineExpr) : bytes (expr tree) = writeExpr tree := by
  cases tree with
  | constant dataType value vector =>
      simp only [expr, writeExpr, bytes_append, bytes_number, bytes_type, bytes_datum,
        bytes_optional, bytes_counted, bytes_octet, List.append_assoc]
      rfl
  | call dataType inputs function =>
      simp only [expr, writeExpr, bytes_append, bytes_number, bytes_type, bytes_text,
        bytes_exprsOfAll inputs, List.append_assoc]
      rfl
  | fieldAccess dataType field =>
      simp only [expr, writeExpr, bytes_append, bytes_number, bytes_type, bytes_text,
        List.append_assoc]
      rfl
termination_by structural tree

theorem bytes_exprsOfAll (trees : List EngineExpr) :
    bytes (exprsOfAll trees) = writeExprs trees := by
  cases trees with
  | nil => rfl
  | cons first rest =>
      rw [exprsOfAll, writeExprs, bytes_append, bytes_expr first, bytes_exprsOfAll rest]
termination_by structural trees

end

end Layout
end ScalarLowering.Wire
