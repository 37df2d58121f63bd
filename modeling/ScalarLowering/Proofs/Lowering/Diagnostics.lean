import ScalarLowering.Proofs.Lowering.DigitCounts
import ScalarLowering.Proofs.Lowering.Renaming
import ScalarLowering.Proofs.Lowering.TypeErasure

/-!
Refusals as diagnostics. A tree is refused on account of one of its nodes, all operands of which are
lowered; the refusal names what is wrong with that node. Nodes in the rows of field accesses are never
to blame.
-/

namespace ScalarLowering

namespace Decimal

variable {d : Decimal} {refusal : Refusal}

theorem tooWide_of_lower (refused : d.lower.result = .error refusal) :
    refusal = .decimalTooWide d.unscaled d.precision ∧ d.precision ≤ 18 ∧
      ¬ (-2 ^ 63 ≤ d.unscaled ∧ d.unscaled < 2 ^ 63) := by
  have stored := d.storedByPrecision
  by_cases narrow : d.precision ≤ 18
  · by_cases fits : -2 ^ 63 ≤ d.unscaled ∧ d.unscaled < 2 ^ 63
    · obtain ⟨word, _, lowered⟩ := stored.bigInt.mpr ⟨narrow, fits⟩
      rw [lowered] at refused
      contradiction
    · rw [stored.tooWide.mpr ⟨narrow, fits⟩] at refused
      exact ⟨(Except.error.inj refused).symm, narrow, fits⟩
  · rw [stored.hugeInt.mpr (UInt32.not_le.mp narrow)] at refused
    contradiction

theorem precision_ne_of_beyond (narrow : d.precision ≤ 18)
    (beyond : ¬ (-2 ^ 63 ≤ d.unscaled ∧ d.unscaled < 2 ^ 63)) :
    d.precision.toNat ≠ d.digits.length := by
  intro same
  have short : d.digits.length ≤ 18 := same ▸ UInt32.le_iff_toNat_le.mp narrow
  rw [Decimal.digits, Numeral.length_digits_le_iff (by decide)] at short
  omega

end Decimal

namespace Literal

variable {value : Literal} {refusal : Refusal} {tag : SqlType.Tag}

theorem eq_invalid_of_read {α : Type} {reader : List Char → Option α}
    (refused : value.read tag reader = .error refusal) : refusal = value.invalid tag := by
  by_cases absent : value = .null
  · rw [absent] at refused ⊢
    exact (Except.error.inj refused).symm
  · rw [read_of_present absent] at refused
    cases read : reader value.chars with
    | none =>
        rw [read] at refused
        exact (Except.error.inj refused).symm
    | some found =>
        rw [read] at refused
        contradiction

theorem eq_null_of_read (refused : value.read tag (some ∘ String.ofList) = .error refusal) :
    value = .null := by
  by_contra present
  rw [read_of_present present] at refused
  contradiction

theorem eq_invalid_of_asBoolean (refused : value.asBoolean = .error refusal) :
    refusal = value.invalid .boolean := by
  cases value with
  | boolean truth => contradiction
  | _ => exact (Except.error.inj refused).symm

end Literal

namespace PlanExpr

/-- What is wrong with a node that a refusal is about. No node makes a tree unreadable. -/
inductive Justifies (env : Environment) : PlanExpr → Refusal → Prop
  | unsupportedNode {node : PlanExpr}
      (kind : node.kind = .dynamicParam ∨ node.kind = .localRef ∨ node.kind = .correlVariable) :
      Justifies env node (.unsupportedNode node.kind)
  | unsupportedType {node : PlanExpr} {part : SqlType} (occurs : part ∈ node.type.reached)
      (unsupported : part.tag.isSupported = false) :
      Justifies env node (.unsupportedType part.tag)
  | unsupportedLiteral {value : Literal} {type : SqlType}
      (tagged : type.tag = .timestamp ∨ type.tag = .row) :
      Justifies env (.literal value type) (.unsupportedLiteral type.tag)
  | invalidLiteral {value : Literal} {type : SqlType}
      (tagged : type.tag ∈ [.boolean, .integer, .bigInt, .varChar, .decimal])
      (absent : type.tag = .varChar → value = .null) :
      Justifies env (.literal value type) (.invalidLiteral type.tag value.toText)
  | decimalTooWide {d : Decimal} {precision : UInt32} {scale : Int32} (narrow : d.precision ≤ 18)
      (stated : d.precision.toNat ≠ d.digits.length)
      (beyond : ¬ (-2 ^ 63 ≤ d.unscaled ∧ d.unscaled < 2 ^ 63)) :
      Justifies env (.literal (.decimal d) (.decimal precision scale))
        (.decimalTooWide d.unscaled d.precision)
  | columnOutOfBounds {index : Nat} {type : SqlType} (beyond : env.columns.length ≤ index) :
      Justifies env (.inputRef index type) (.columnOutOfBounds index env.columns.length)
  | unknownOperator {operator : String} {operands : List PlanExpr} {type : SqlType}
      (unresolved : env.resolve operator = .error (.unknownOperator operator)) :
      Justifies env (.call operator operands type) (.unknownOperator operator)

variable {env : Environment} {node : PlanExpr} {refusal : Refusal}

section Nodes

theorem justifies_of_type (refused : node.type.lower = .error refusal) :
    Justifies env node refusal := by
  obtain ⟨first, found, rfl⟩ := SqlType.lower_eq_error_iff.mp refused
  have unsupported := List.find?_some found
  exact .unsupportedType (List.mem_of_find?_eq_some found) (by simpa using unsupported)

theorem justifies_of_decimal {value : Literal} {precision : UInt32} {scale : Int32}
    (few : value.FewDigits) (refused : value.lower (.decimal precision scale) = .error refusal) :
    Justifies env (.literal value (.decimal precision scale)) refusal := by
  rw [Literal.lower_decimal] at refused
  by_cases read : ∃ d, value.ReadsAs d
  · obtain ⟨d, reads⟩ := read
    rw [Literal.asDecimal_of_readsAs reads] at refused
    obtain ⟨rfl, narrow, beyond⟩ := Decimal.tooWide_of_lower refused
    cases reads with
    | itself => exact .decimalTooWide narrow (Decimal.precision_ne_of_beyond narrow beyond) beyond
    | text other parsed =>
        -- The digits of a text are counted, so that their number selects a width that they fit.
        have counted := Literal.length_digits_lt_of_readsAs few (.text other parsed)
        exact absurd refused ((Decimal.storedByDigits (.parsed parsed) counted).fits _ _)
  · rw [Literal.asDecimal_of_unread read] at refused
    cases refused
    exact .invalidLiteral (by simp [SqlType.tag]) nofun

theorem justifies_of_literal {value : Literal} {type : SqlType} {engineType : EngineType}
    (few : value.FewDigits) (typed : type.lower = .ok engineType)
    (refused : value.lower type = .error refusal) : Justifies env (.literal value type) refusal := by
  cases type with
  | boolean =>
      rw [Literal.lower_boolean, map_eq_error] at refused
      rw [Literal.eq_invalid_of_asBoolean refused]
      exact .invalidLiteral (by decide) nofun
  | integer =>
      rw [Literal.lower_integer, map_eq_error] at refused
      rw [Literal.eq_invalid_of_read refused]
      exact .invalidLiteral (by decide) nofun
  | bigInt =>
      rw [Literal.lower_bigInt, map_eq_error] at refused
      rw [Literal.eq_invalid_of_read refused]
      exact .invalidLiteral (by decide) nofun
  | varChar length =>
      rw [Literal.lower_varChar, map_eq_error] at refused
      rw [Literal.eq_invalid_of_read refused]
      exact .invalidLiteral (by simp [SqlType.tag]) fun _ => Literal.eq_null_of_read refused
  | decimal precision scale => exact justifies_of_decimal few refused
  | timestamp =>
      cases refused
      exact .unsupportedLiteral (.inl rfl)
  | row fields =>
      cases refused
      exact .unsupportedLiteral (.inr rfl)
  | _ => cases typed

theorem justifies_of_column {index : Nat} {type : SqlType}
    (refused : env.column index = .error refusal) : Justifies env (.inputRef index type) refusal := by
  unfold Environment.column at refused
  cases found : env.columns[index]? with
  | none =>
      rw [found] at refused
      cases refused
      exact .columnOutOfBounds (List.getElem?_eq_none_iff.mp found)
  | some name =>
      rw [found] at refused
      contradiction

/-- A node whose operands are lowered is refused for what is wrong with itself. -/
theorem justifies_of_lower {inputs : List EngineExpr}
    (few : ∀ value type, node = .literal value type → value.FewDigits)
    (named : ∀ operator cause, env.resolve operator = .error cause → cause = .unknownOperator operator)
    (operands : lowerAll env node.kept = .ok inputs) (refused : lower env node = .error refusal) :
    Justifies env node refusal := by
  cases node with
  | literal value type =>
      rw [lower_literal] at refused
      rcases bind_eq_error.mp refused with typeRefused | ⟨engineType, typed, refused⟩
      · exact justifies_of_type typeRefused
      · rcases bind_eq_error.mp refused with valueRefused | ⟨_, _, done⟩
        · exact justifies_of_literal (few value type rfl) typed valueRefused
        · cases done
  | call operator nodes type =>
      rw [lower_call] at refused
      rcases bind_eq_error.mp refused with operandsRefused | ⟨_, _, refused⟩
      · rw [kept, operandsRefused] at operands
        contradiction
      · rcases bind_eq_error.mp refused with typeRefused | ⟨engineType, typed, refused⟩
        · exact justifies_of_type typeRefused
        · rcases bind_eq_error.mp refused with unresolved | ⟨_, _, done⟩
          · obtain rfl := named operator refusal unresolved
            exact .unknownOperator unresolved
          · cases done
  | inputRef index type =>
      rw [lower_inputRef] at refused
      rcases bind_eq_error.mp refused with beyond | ⟨name, found, refused⟩
      · exact justifies_of_column beyond
      · rcases bind_eq_error.mp refused with typeRefused | ⟨_, _, done⟩
        · exact justifies_of_type typeRefused
        · cases done
  | fieldAccess parent field type =>
      rw [lower_fieldAccess] at refused
      rcases bind_eq_error.mp refused with typeRefused | ⟨_, _, done⟩
      · exact justifies_of_type typeRefused
      · cases done
  | dynamicParam index type =>
      cases refused
      exact .unsupportedNode (.inl rfl)
  | localRef index type =>
      cases refused
      exact .unsupportedNode (.inr (.inl rfl))
  | correlVariable id type =>
      cases refused
      exact .unsupportedNode (.inr (.inr rfl))

end Nodes

mutual

/-- A refused tree has a part that is refused for the same cause, although its operands are lowered. -/
theorem exists_refused_part (node : PlanExpr) : lower env node = .error refusal →
    ∃ part inputs, Occurs part node ∧ lowerAll env part.kept = .ok inputs ∧
      lower env part = .error refusal := by
  intro refused
  cases node with
  | call operator operands type =>
      cases lowered : lowerAll env operands with
      | ok inputs => exact ⟨_, inputs, .refl _, lowered, refused⟩
      | error cause =>
          rw [lower_call, lowered] at refused
          cases refused
          obtain ⟨operand, member, part, inputs, occurs, refusedPart⟩ :=
            exists_refused_member operands lowered
          exact ⟨part, inputs, occurs.of_kept member, refusedPart⟩
  | literal | inputRef | fieldAccess | dynamicParam | localRef | correlVariable =>
      exact ⟨_, [], .refl _, lowerAll_nil, refused⟩
termination_by structural node

theorem exists_refused_member (nodes : List PlanExpr) : lowerAll env nodes = .error refusal →
    ∃ node ∈ nodes, ∃ part inputs, Occurs part node ∧ lowerAll env part.kept = .ok inputs ∧
      lower env part = .error refusal := by
  intro refused
  cases nodes with
  | nil => contradiction
  | cons node rest =>
      rw [lowerAll_cons] at refused
      rcases bind_eq_error.mp refused with first | ⟨expr, _, refused⟩
      · exact ⟨node, List.mem_cons_self, exists_refused_part node first⟩
      · rcases bind_eq_error.mp refused with others | ⟨_, _, done⟩
        · obtain ⟨member, among, part⟩ := exists_refused_member rest others
          exact ⟨member, List.mem_cons_of_mem node among, part⟩
        · cases done
termination_by structural nodes

end

/-- Whatever a tree is refused for is true of one of its nodes, which is in no row of a field access. The
digits of byte strings have to be few as well, since they are read as decimals too. -/
theorem lower_refusal_justified
    (few : ∀ value type, Occurs (.literal value type) node → value.FewDigits)
    (named : ∀ operator cause, env.resolve operator = .error cause → cause = .unknownOperator operator)
    (refused : node.lower env = .error refusal) :
    ∃ part, Occurs part node ∧ Justifies env part refusal := by
  obtain ⟨part, inputs, occurs, operands, refusedPart⟩ := exists_refused_part node refused
  refine ⟨part, occurs, justifies_of_lower ?_ named operands refusedPart⟩
  rintro value type rfl
  exact few value type occurs

/-- The comparison of a field with the first integer beyond 64 bits, whose precision is stated as
eighteen. -/
def overstated : PlanExpr :=
  .call "="
    [ .fieldAccess (.dynamicParam 0 .null) "total" .bigInt,
      .literal (.decimal ⟨2 ^ 63, 18, 0⟩) (.decimal 18 0) ]
    .double

/-- The literal is to blame, not the row of the field, which comes before it, and not the type of the
call. -/
theorem lower_refusal_justified_overstated :
    overstated.lower ⟨[], OperatorTable.standard.resolve⟩ = .error (.decimalTooWide (2 ^ 63) 18) ∧
    (∀ value type, Occurs (.literal value type) overstated → value.FewDigits) ∧
    (∀ operator cause, OperatorTable.standard.resolve operator = .error cause →
      cause = .unknownOperator operator) ∧
    ∃ part, Occurs part overstated ∧
      Justifies ⟨[], OperatorTable.standard.resolve⟩ part (.decimalTooWide (2 ^ 63) 18) := by
  have refused : overstated.lower ⟨[], OperatorTable.standard.resolve⟩ =
      .error (.decimalTooWide (2 ^ 63) 18) := rfl
  have few : ∀ value type, Occurs (.literal value type) overstated → value.FewDigits := by
    intro value type occurs
    rcases exists_descend_iff.mp occurs with same | ⟨operand, member, occurs⟩
    · cases same
    · simp only [overstated, kept, List.mem_cons, List.not_mem_nil, or_false] at member
      rcases member with rfl | rfl
      · cases (occurs_leaf_iff rfl).mp occurs
      · cases (occurs_leaf_iff rfl).mp occurs
        decide
  have named : ∀ operator cause, OperatorTable.standard.resolve operator = .error cause →
      cause = .unknownOperator operator := fun _ _ unresolved =>
    (OperatorTable.resolve_eq_error_iff.mp unresolved).1
  exact ⟨refused, few, named, lower_refusal_justified few named refused⟩

def tenPower (zeros : Nat) : PlanExpr := .literal (.powerOfTen zeros) (.decimal 10 0)

/-- Bounds on the digits of decimals and of texts are not enough: a byte string with two to the power of
thirty-two digits is refused as a decimal that is too wide, and there is no decimal in the tree. -/
theorem lower_refusal_unjustified :
    (∀ d type, Occurs (.literal (.decimal d) type) (tenPower (2 ^ 31 - 1)) →
      d.digits.length < 2 ^ 32) ∧
    (∀ spelling type, Occurs (.literal (.text spelling) type) (tenPower (2 ^ 31 - 1)) →
      spelling.toList.countP Char.isDigit < 2 ^ 32) ∧
    (∀ operator cause, OperatorTable.standard.resolve operator = .error cause →
      cause = .unknownOperator operator) ∧
    (tenPower (2 ^ 31 - 1)).lower ⟨[], OperatorTable.standard.resolve⟩ =
      .error (.decimalTooWide (10 ^ (2 ^ 32 - 1)) 0) ∧
    ¬ ∃ part, Occurs part (tenPower (2 ^ 31 - 1)) ∧
      Justifies ⟨[], OperatorTable.standard.resolve⟩ part
        (.decimalTooWide (10 ^ (2 ^ 32 - 1)) 0) := by
  refine ⟨?_, ?_, ?_, ?_, ?_⟩
  · intro d type occurs
    cases (occurs_leaf_iff rfl).mp occurs
  · intro spelling type occurs
    cases (occurs_leaf_iff rfl).mp occurs
  · intro operator cause unresolved
    exact (OperatorTable.resolve_eq_error_iff.mp unresolved).1
  · have wraps : 2 * (2 ^ 31 - 1) + 2 = 2 ^ 32 := rfl
    have exponent : 2 * (2 ^ 31 - 1) + 1 = 2 ^ 32 - 1 := rfl
    have refused := Literal.lower_powerOfTen wraps 10 0
    rw [exponent] at refused
    rw [tenPower, lower_literal, refused]
    rfl
  · rintro ⟨part, occurs, justifies⟩
    rw [(occurs_leaf_iff rfl).mp occurs] at justifies
    cases justifies

end PlanExpr
end ScalarLowering
