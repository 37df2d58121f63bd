import ScalarLowering.Proofs.Lowering.EngineTyping
import ScalarLowering.Proofs.Lowering.Refusals

/-!
The lowering of types as erasure. The engine's types are the supported SQL types in which strings have
no length: nothing else is lost when a type is lowered, and every engine type whose rows are balanced is
lowered from some SQL type. A type is refused for the first unsupported type that comes up when the
fields of its rows are gone through from left to right.
-/

namespace ScalarLowering

namespace SqlType

def Tag.isSupported : Tag → Bool
  | .boolean | .integer | .bigInt | .varChar | .timestamp | .decimal | .row => true
  | _ => false

mutual

/-- A type and the types nested in the fields of its rows, depth first and from left to right. What
arrays and maps consist of is not among them. -/
def reached : SqlType → List SqlType
  | .row fields => .row fields :: reachedOfAll fields
  | type => [type]
termination_by structural type => type

def reachedOfAll : List (String × SqlType) → List SqlType
  | [] => []
  | (_, type) :: rest => reached type ++ reachedOfAll rest
termination_by structural fields => fields

end

/-- The type and all types nested in the fields of its rows have tags that the engine knows. -/
def Supported (type : SqlType) : Prop :=
  ∀ nested : Position parts type, nested.subtree.tag.isSupported

mutual

/-- A type whose strings are not bounded, wherever they stand in it. -/
def withoutLengths : SqlType → SqlType
  | .varChar _ => .varChar none
  | .array element => .array (withoutLengths element)
  | .map key value => .map (withoutLengths key) (withoutLengths value)
  | .row fields => .row (fieldsWithoutLengths fields)
  | type => type
termination_by structural type => type

def fieldsWithoutLengths : List (String × SqlType) → List (String × SqlType)
  | [] => []
  | (name, type) :: rest => (name, withoutLengths type) :: fieldsWithoutLengths rest
termination_by structural fields => fields

end

/-- What a type and its counterpart have in common, apart from the types of their fields: the kind, the
parameters of decimals, and the names of fields in their order. -/
inductive Mirrors : SqlType → EngineType → Prop
  | boolean : Mirrors .boolean .boolean
  | integer : Mirrors .integer .integer
  | bigInt : Mirrors .bigInt .bigInt
  | varChar (length : Option UInt32) : Mirrors (.varChar length) .varChar
  | timestamp : Mirrors .timestamp .timestamp
  | decimal (precision : UInt32) (scale : Int32) :
      Mirrors (.decimal precision scale) (.decimal precision scale)
  | row {fields : List (String × SqlType)} {types : List EngineType}
      (counted : fields.length = types.length) :
      Mirrors (.row fields) (.row (fields.map Prod.fst) types)

end SqlType

namespace EngineType

/-- All rows in a type have as many names as types. -/
def WellFormed (type : EngineType) : Prop :=
  ∀ nested : Position parts type, nested.subtree.Balanced

theorem wellFormed_row_iff {names : List String} {types : List EngineType} :
    WellFormed (.row names types) ↔ names.length = types.length ∧ ∀ type ∈ types, type.WellFormed :=
  forall_position_step Balanced

mutual

def toSql : EngineType → SqlType
  | .boolean => .boolean
  | .integer => .integer
  | .bigInt => .bigInt
  | .varChar => .varChar none
  | .timestamp => .timestamp
  | .decimal precision scale => .decimal precision scale
  | .row names types => .row (names.zip (toSqlOfAll types))
termination_by structural type => type

def toSqlOfAll : List EngineType → List SqlType
  | [] => []
  | type :: rest => toSql type :: toSqlOfAll rest
termination_by structural types => types

end

theorem length_toSqlOfAll (types : List EngineType) : (toSqlOfAll types).length = types.length := by
  induction types with
  | nil => rfl
  | cons type rest induction => rw [toSqlOfAll, List.length_cons, List.length_cons, induction]

end EngineType

namespace SqlType

variable {type other part : SqlType} {engineType : EngineType}

section Refusals

def unsupported (types : List SqlType) : List Refusal :=
  (types.filter fun type => !type.tag.isSupported).map fun type => .unsupportedType type.tag

theorem unsupported_append (types others : List SqlType) :
    unsupported (types ++ others) = unsupported types ++ unsupported others := by
  rw [unsupported, List.filter_append, List.map_append]
  rfl

mutual

theorem lower_headedBy (type : SqlType) : HeadedBy type.lower (unsupported type.reached) := by
  cases type with
  | row fields =>
      -- The row itself is supported, so that only its fields are left to be refused.
      change HeadedBy (lower (.row fields)) (unsupported (reachedOfAll fields))
      rw [lower_row, map_eq_pure_bind]
      exact (lowerFields_headedBy fields).last
  | boolean | integer | bigInt | varChar | timestamp | decimal => exact HeadedBy.ok _
  | _ => rfl
termination_by structural type

theorem lowerFields_headedBy (fields : List (String × SqlType)) :
    HeadedBy (lowerFields fields) (unsupported (reachedOfAll fields)) := by
  cases fields with
  | nil => exact HeadedBy.ok []
  | cons field rest =>
      obtain ⟨name, type⟩ := field
      rw [lowerFields_cons, reachedOfAll, unsupported_append]
      exact (lower_headedBy type).bind fun first => (lowerFields_headedBy rest).last
termination_by structural fields

end

mutual

theorem mem_reached_iff (type : SqlType) :
    part ∈ type.reached ↔ ∃ path, descend parts path type = some part := by
  rw [exists_descend_iff]
  cases type with
  | row fields =>
      rw [reached, List.mem_cons, mem_reachedOfAll_iff fields]
      rfl
  | _ => simp [reached, parts]
termination_by structural type

theorem mem_reachedOfAll_iff (fields : List (String × SqlType)) :
    part ∈ reachedOfAll fields ↔
      ∃ type ∈ fields.map Prod.snd, ∃ path, descend parts path type = some part := by
  cases fields with
  | nil => simp [reachedOfAll]
  | cons field rest =>
      obtain ⟨name, type⟩ := field
      rw [reachedOfAll, List.mem_append, mem_reached_iff type, mem_reachedOfAll_iff rest, List.map_cons,
        List.exists_mem_cons_iff]
termination_by structural fields

end

theorem unsupported_reached_eq_nil_iff : unsupported type.reached = [] ↔ type.Supported := by
  have nested : type.Supported ↔
      ∀ part, (∃ path, descend parts path type = some part) → part.tag.isSupported :=
    forall_position_iff fun part : SqlType => (part.tag.isSupported : Prop)
  rw [nested, unsupported, List.map_eq_nil_iff, List.filter_eq_nil_iff]
  simp only [mem_reached_iff, Bool.not_eq_true', Bool.not_eq_false]

theorem exists_lower_iff : (∃ engineType, type.lower = .ok engineType) ↔ type.Supported := by
  rw [(lower_headedBy type).ok_iff, unsupported_reached_eq_nil_iff]

theorem lower_eq_error_iff {refusal : Refusal} : type.lower = .error refusal ↔
    ∃ first, type.reached.find? (fun part => !part.tag.isSupported) = some first ∧
      refusal = .unsupportedType first.tag := by
  rw [(lower_headedBy type).error_iff, unsupported, List.head?_map, List.head?_filter,
    Option.map_eq_some_iff]
  simp only [eq_comm]

end Refusals

section Erasure

theorem mirrors_of_lower (lowered : type.lower = .ok engineType) : type.Mirrors engineType := by
  cases type with
  | row fields =>
      rw [lower_row] at lowered
      obtain ⟨types, fieldsLowered, rfl⟩ := map_eq_ok.mp lowered
      refine .row ?_
      rw [← length_of_lowerFields fieldsLowered, List.length_map]
  | boolean | integer | bigInt | varChar | timestamp | decimal =>
      cases lowered
      constructor
  | _ => cases lowered

theorem wellFormed_of_lower (lowered : type.lower = .ok engineType) : engineType.WellFormed := by
  intro nested
  obtain ⟨source, sourceLowered⟩ := exists_lower_of_descend lowered nested.path nested.descend_eq
  exact balanced_of_lower sourceLowered

theorem map_fst_fieldsWithoutLengths (fields : List (String × SqlType)) :
    (fieldsWithoutLengths fields).map Prod.fst = fields.map Prod.fst := by
  induction fields with
  | nil => rfl
  | cons field rest induction => exact congrArg (field.1 :: ·) induction

mutual

theorem lower_withoutLengths (type : SqlType) : type.withoutLengths.lower = type.lower := by
  cases type with
  | row fields =>
      rw [withoutLengths, lower_row, lower_row, map_fst_fieldsWithoutLengths,
        lowerFields_withoutLengths fields]
  | _ => rfl
termination_by structural type

theorem lowerFields_withoutLengths (fields : List (String × SqlType)) :
    lowerFields (fieldsWithoutLengths fields) = lowerFields fields := by
  cases fields with
  | nil => rfl
  | cons field rest =>
      obtain ⟨name, type⟩ := field
      rw [fieldsWithoutLengths, lowerFields_cons, lowerFields_cons, lower_withoutLengths type,
        lowerFields_withoutLengths rest]
termination_by structural fields

end

mutual

theorem toSql_of_lower (type : SqlType) (engineType : EngineType) :
    type.lower = .ok engineType → engineType.toSql = type.withoutLengths := by
  intro lowered
  cases type with
  | row fields =>
      rw [lower_row] at lowered
      obtain ⟨types, fieldsLowered, rfl⟩ := map_eq_ok.mp lowered
      rw [EngineType.toSql, withoutLengths, zip_of_lowerFields fields types fieldsLowered]
  | boolean | integer | bigInt | varChar | timestamp | decimal =>
      cases lowered
      rfl
  | _ => cases lowered
termination_by structural type

theorem zip_of_lowerFields (fields : List (String × SqlType)) (types : List EngineType) :
    lowerFields fields = .ok types →
      (fields.map Prod.fst).zip (EngineType.toSqlOfAll types) = fieldsWithoutLengths fields := by
  intro lowered
  cases fields with
  | nil =>
      cases lowered
      rfl
  | cons field rest =>
      obtain ⟨name, type⟩ := field
      rw [lowerFields_cons] at lowered
      obtain ⟨first, firstLowered, lowered⟩ := PlanExpr.bind_eq_ok.mp lowered
      obtain ⟨others, othersLowered, same⟩ := PlanExpr.bind_eq_ok.mp lowered
      cases same
      rw [EngineType.toSqlOfAll, fieldsWithoutLengths, List.map_cons, List.zip_cons_cons,
        toSql_of_lower type first firstLowered, zip_of_lowerFields rest others othersLowered]
termination_by structural fields

end

mutual

theorem lower_toSql (engineType : EngineType) :
    engineType.WellFormed → engineType.toSql.lower = .ok engineType := by
  intro formed
  cases engineType with
  | row names types =>
      obtain ⟨counted, each⟩ := EngineType.wellFormed_row_iff.mp formed
      have lengths : names.length = (EngineType.toSqlOfAll types).length := by
        rw [counted, EngineType.length_toSqlOfAll]
      rw [EngineType.toSql, lower_row, List.map_fst_zip (Nat.le_of_eq lengths),
        lowerFields_zip types names counted each]
      rfl
  | boolean | integer | bigInt | varChar | timestamp | decimal => rfl
termination_by structural engineType

theorem lowerFields_zip (types : List EngineType) (names : List String) :
    names.length = types.length → (∀ type ∈ types, type.WellFormed) →
      lowerFields (names.zip (EngineType.toSqlOfAll types)) = .ok types := by
  intro counted each
  cases types with
  | nil =>
      rw [EngineType.toSqlOfAll, List.zip_nil_right]
      rfl
  | cons type rest =>
      cases names with
      | nil => contradiction
      | cons name others =>
          obtain ⟨first, behind⟩ := List.forall_mem_cons.mp each
          have counted : others.length = rest.length := Nat.succ.inj counted
          rw [EngineType.toSqlOfAll, List.zip_cons_cons, lowerFields_cons, lower_toSql type first,
            lowerFields_zip rest others counted behind]
          rfl
termination_by structural types

end

/-- The engine type of an SQL type is that type without the lengths of its strings. -/
theorem lower_eq_ok_iff : type.lower = .ok engineType ↔
    engineType.WellFormed ∧ engineType.toSql = type.withoutLengths := by
  constructor
  · intro lowered
    exact ⟨wellFormed_of_lower lowered, toSql_of_lower type engineType lowered⟩
  · rintro ⟨formed, same⟩
    rw [← lower_withoutLengths, ← same, lower_toSql engineType formed]

theorem lower_eq_lower_iff (supported : type.Supported) :
    (∃ shared, type.lower = .ok shared ∧ other.lower = .ok shared) ↔
      type.withoutLengths = other.withoutLengths := by
  simp only [lower_eq_ok_iff]
  constructor
  · rintro ⟨shared, ⟨_, same⟩, _, otherSame⟩
    exact same.symm.trans otherSame
  · intro alike
    obtain ⟨shared, lowered⟩ := exists_lower_iff.mpr supported
    obtain ⟨formed, same⟩ := lower_eq_ok_iff.mp lowered
    exact ⟨shared, ⟨formed, same⟩, formed, same.trans alike⟩

end Erasure

/-- Lowering is defined on the supported types, keeps all of a type but the lengths of its strings, and
reaches all engine types with balanced rows. A type is refused with the tag of the first unsupported
type that is reached in it. -/
theorem lower_erases_lengths (type other : SqlType) (engineType : EngineType) :
    ((∃ lowered, type.lower = .ok lowered) ↔ type.Supported) ∧
    (type.lower = .ok engineType → ∀ path, Option.Rel Mirrors (descend parts path type)
      (descend EngineType.parts path engineType)) ∧
    (type.Supported → other.Supported →
      ((∃ shared, type.lower = .ok shared ∧ other.lower = .ok shared) ↔
        type.withoutLengths = other.withoutLengths)) ∧
    (engineType.WellFormed → ∃ source : SqlType, source.lower = .ok engineType) ∧
    (∀ refusal, type.lower = .error refusal ↔
      ∃ first, type.reached.find? (fun part => !part.tag.isSupported) = some first ∧
        refusal = .unsupportedType first.tag) ∧
    ∀ tag, type.lower = .error (.unsupportedType tag) → tag ≠ .row := by
  refine ⟨exists_lower_iff, fun lowered path => ?_, fun supported _ => lower_eq_lower_iff supported,
    fun formed => ⟨_, lower_toSql engineType formed⟩, fun _ => lower_eq_error_iff, ?_⟩
  · exact rel_imp mirrors_of_lower (descend_rel parts_lowered lowered path)
  · intro tag refused same
    obtain ⟨first, found, named⟩ := lower_eq_error_iff.mp refused
    have unsupported := List.find?_some found
    rw [← Refusal.unsupportedType.inj named, same] at unsupported
    contradiction

def customer (nameLength : Option UInt32) (city : SqlType) : SqlType :=
  .row [("name", .varChar nameLength), ("address", .row [("city", city)])]

/-- Rows that differ in the lengths of their strings are lowered alike, an array two rows deep is what a
row is refused for, and a row without fields is a counterpart too. -/
theorem lower_erases_lengths_customer :
    (∃ shared, (customer (some 20) (.varChar (some 40))).lower = .ok shared ∧
      (customer none (.varChar none)).lower = .ok shared) ∧
    (customer none (.array .float)).lower = .error (.unsupportedType .array) ∧
    ∃ source : SqlType, source.lower = .ok (.row ["pair"] [.row [] []]) := by
  have formed : EngineType.WellFormed (.row ["pair"] [.row [] []]) := by
    simp [EngineType.wellFormed_row_iff]
  obtain ⟨bounded, _, alike, reached, _⟩ :=
    lower_erases_lengths (customer (some 20) (.varChar (some 40))) (customer none (.varChar none))
      (.row ["pair"] [.row [] []])
  obtain ⟨unbounded, _⟩ :=
    lower_erases_lengths (customer none (.varChar none)) (customer none (.varChar none)) .boolean
  obtain ⟨_, _, _, _, refused, _⟩ :=
    lower_erases_lengths (customer none (.array .float)) (customer none (.varChar none)) .boolean
  have supported : (customer (some 20) (.varChar (some 40))).Supported := bounded.mp ⟨_, rfl⟩
  have otherSupported : (customer none (.varChar none)).Supported := unbounded.mp ⟨_, rfl⟩
  exact ⟨(alike supported otherSupported).mpr rfl, (refused _).mpr ⟨_, rfl, rfl⟩, reached formed⟩

end SqlType
end ScalarLowering
