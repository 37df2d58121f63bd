import ScalarLowering.Lowering.Constants

/-!
What a literal comes to, apart from its log: one equation for each type that has constants, and what
each answer holds.
-/

namespace ScalarLowering

theorem map_eq_ok {α β : Type} {f : α → β} {result : Except Refusal α} {answer : β} :
    f <$> result = .ok answer ↔ ∃ value, result = .ok value ∧ f value = answer := by
  cases result with
  | error refusal => simp [Functor.map, Except.map]
  | ok value => simp [Functor.map, Except.map]

theorem map_eq_error {α β : Type} {f : α → β} {result : Except Refusal α} {refusal : Refusal} :
    f <$> result = .error refusal ↔ result = .error refusal := by
  cases result with
  | error refusal => simp [Functor.map, Except.map]
  | ok value => simp [Functor.map, Except.map]

namespace Decimal

theorem result_lower (d : Decimal) :
    d.lower.result =
      if d.precision ≤ bigIntPrecision then
        match Word.int64? d.unscaled with
        | some value => .ok (.bigInt value)
        | none => .error (.decimalTooWide d.unscaled d.precision)
      else .ok (.hugeInt d.unscaled) := by
  unfold Decimal.lower
  split
  · cases Word.int64? d.unscaled with
    | none => rfl
    | some value => rfl
  · rfl

theorem stored_of_lower {d : Decimal} {datum : Datum} (stored : d.lower.result = .ok datum) :
    (∃ value : Int64, value.toInt = d.unscaled ∧ datum = .bigInt value) ∨
      datum = .hugeInt d.unscaled := by
  rw [result_lower] at stored
  split at stored
  · cases fits : Word.int64? d.unscaled with
    | none =>
        rw [fits] at stored
        contradiction
    | some value =>
        rw [fits] at stored
        cases stored
        exact .inl ⟨value, Word.int64?_eq_some_iff.mp fits, rfl⟩
  · cases stored
    exact .inr rfl

end Decimal

namespace Literal

section Reading

variable {α : Type} {value : Literal} (present : value ≠ .null)

include present

theorem read_of_present (tag : SqlType.Tag) (reader : List Char → Option α) :
    value.read tag reader = (reader value.chars).elim (.error (value.invalid tag)) .ok := by
  rw [read]
  · cases reader value.chars with
    | none => rfl
    | some found => rfl
  · exact present

theorem read_eq_ok_iff {tag : SqlType.Tag} {reader : List Char → Option α} {result : α} :
    value.read tag reader = .ok result ↔ reader value.chars = some result := by
  rw [read_of_present present]
  cases reader value.chars with
  | none => exact iff_of_false nofun nofun
  | some found => rw [Option.elim_some, Except.ok.injEq, Option.some.injEq]

end Reading

section Other

variable {value : Literal} (other : ∀ d, value ≠ .decimal d)

include other

/-- All literals but decimals are read through their text form, also a null, whose text is no decimal. -/
theorem asDecimal_of_other :
    value.asDecimal = (Decimal.ofChars? value.chars).elim (.error (value.invalid .decimal)) .ok := by
  by_cases absent : value = .null
  · rw [absent]
    rfl
  · rw [asDecimal, read_of_present absent]
    exact other

theorem asDecimal_of_ofChars? {d : Decimal} (read : Decimal.ofChars? value.chars = some d) :
    value.asDecimal = .ok d := by
  rw [asDecimal_of_other other, read, Option.elim_some]

end Other

variable (value : Literal)

theorem lower_boolean : value.lower .boolean = Datum.boolean <$> value.asBoolean := rfl

theorem lower_integer : value.lower .integer = Datum.integer <$> value.read .integer readInt32? := rfl

theorem lower_bigInt : value.lower .bigInt = Datum.bigInt <$> value.read .bigInt readInt64? := rfl

theorem lower_double :
    value.lower .double = Datum.double <$> value.read .double Binary64.ofChars? := rfl

theorem lower_varChar (length : Option UInt32) :
    value.lower (.varChar length) = Datum.varChar <$> value.read .varChar (some ∘ String.ofList) :=
  rfl

theorem lower_decimal (precision : UInt32) (scale : Int32) :
    value.lower (.decimal precision scale) = value.asDecimal >>= fun d => d.lower.result := by
  change (Logged.ofExcept value.asDecimal >>= fun d => d.lower).result = _
  rw [Logged.result_bind, Logged.result_ofExcept]

end Literal
end ScalarLowering
