import ScalarLowering.Lowering.Refusal

/-!
The log of a lowering, and computations that write one. A run keeps the records it has written up to
the point where it is refused.
-/

namespace ScalarLowering

inductive LogLevel where
  | debug
  | trace
  deriving DecidableEq

def LogLevel.name : LogLevel → String
  | .debug => "DEBUG"
  | .trace => "TRACE"

inductive DecimalStorage where
  | bigInt
  | hugeInt
  deriving DecidableEq

def DecimalStorage.name : DecimalStorage → String
  | .bigInt => "BIGINT"
  | .hugeInt => "HUGEINT"

inductive LogRecord where
  | loweringExpr (kind : PlanExpr.Kind) (depth columns : Nat)
  | loweringExprs (count columns : Nat)
  | decimalStored (value : Decimal) (storage : DecimalStorage)
  deriving DecidableEq

namespace LogRecord

def level : LogRecord → LogLevel
  | .loweringExpr _ _ _ => .debug
  | .loweringExprs _ _ => .debug
  | .decimalStored _ _ => .trace

def message : LogRecord → String
  | .loweringExpr kind depth columns =>
      "Lowering " ++ kind.name ++ " expression (depth " ++ Numeral.text depth ++ ") over " ++
        Numeral.text columns ++ " input columns"
  | .loweringExprs count columns =>
      "Lowering " ++ Numeral.text count ++ " expressions over " ++ Numeral.text columns ++
        " input columns"
  | .decimalStored value storage =>
      "Decimal literal " ++ value.text ++ " (precision " ++ Numeral.text value.precision.toNat ++
        ") stored as " ++ storage.name

end LogRecord

/-- What a run has written, and what it came to. -/
structure Logged (α : Type) where
  records : List LogRecord
  result : Except Refusal α

namespace Logged

variable {α β : Type}

def ofExcept (result : Except Refusal α) : Logged α := ⟨[], result⟩

def write (record : LogRecord) : Logged Unit := ⟨[record], .ok ()⟩

/-- One run after another. The second one does not begin if the first one is refused. -/
def andThen (first : Logged α) (second : α → Logged β) : Logged β :=
  match first.result with
  | .error refusal => ⟨first.records, .error refusal⟩
  | .ok value =>
      let next := second value
      ⟨first.records ++ next.records, next.result⟩

instance : Monad Logged where
  pure value := ⟨[], .ok value⟩
  bind := andThen

instance : LawfulMonad Logged := LawfulMonad.mk' Logged
  (by
    rintro α ⟨records, _ | _⟩
    · rfl
    · exact congrArg (Logged.mk · _) (List.append_nil records))
  (fun _ _ => rfl)
  (by
    rintro α β γ ⟨records, _ | value⟩ second third
    · rfl
    · change Logged.andThen ⟨records ++ (second value).records, (second value).result⟩ third =
        ⟨records ++ ((second value).andThen third).records, ((second value).andThen third).result⟩
      unfold andThen
      split <;> simp_all)

@[simp] theorem result_pure (value : α) : (pure value : Logged α).result = .ok value := rfl

@[simp] theorem records_pure (value : α) : (pure value : Logged α).records = [] := rfl

@[simp] theorem result_ofExcept (result : Except Refusal α) : (ofExcept result).result = result :=
  rfl

@[simp] theorem records_ofExcept (result : Except Refusal α) : (ofExcept result).records = [] :=
  rfl

@[simp] theorem result_write (record : LogRecord) : (write record).result = .ok () := rfl

@[simp] theorem records_write (record : LogRecord) : (write record).records = [record] := rfl

/-- The records do not bear on the result. -/
@[simp] theorem result_bind (first : Logged α) (second : α → Logged β) :
    (first >>= second).result = first.result >>= fun value => (second value).result := by
  change (first.andThen second).result = _
  unfold andThen
  split
  next refused => rw [refused]; rfl
  next done => rw [done]; rfl

theorem records_bind_error {first : Logged α} {refusal : Refusal}
    (refused : first.result = .error refusal) (second : α → Logged β) :
    (first >>= second).records = first.records := by
  change (first.andThen second).records = _
  simp [andThen, refused]

theorem records_bind_ok {first : Logged α} {value : α} (done : first.result = .ok value)
    (second : α → Logged β) :
    (first >>= second).records = first.records ++ (second value).records := by
  change (first.andThen second).records = _
  simp [andThen, done]

end Logged
end ScalarLowering
