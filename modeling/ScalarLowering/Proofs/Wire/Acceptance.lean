import Mathlib.Computability.MyhillNerode
import ScalarLowering.Proofs.Text.Utf8
import ScalarLowering.Proofs.Wire.Grammar
import ScalarLowering.Wire.Format

/-!
What readers accept. A reader is sound for a grammar if it takes nothing but forms of the value that
it answers, and it takes a form if it answers its value whatever follows. Both are kept by the ways
in which readers are composed, so each reader is compared with its grammar field by field. A reader
with a budget takes the forms that are no longer than the budget.
-/

namespace ScalarLowering.Wire.Reader

variable {α β : Type} {reader : Reader α} {next : α → Reader β} {form : α → Language UInt8}
  {target : β → Language UInt8} {bytes rest : List UInt8}

def Sound (reader : Reader α) (form : α → Language UInt8) : Prop :=
  ∀ ⦃bytes value rest⦄, reader bytes = .ok (value, rest) → ∃ front ∈ form value, front ++ rest = bytes

def Takes (bound : Nat) (reader : Reader α) (form : Language UInt8) (value : α) : Prop :=
  ∀ front ∈ form, front.length ≤ bound → ∀ rest, reader (front ++ rest) = .ok (value, rest)

theorem bind_eq_ok {answer : β × List UInt8} :
    (reader >>= next) bytes = .ok answer ↔
      ∃ value rest, reader bytes = .ok (value, rest) ∧ next value rest = .ok answer := by
  change (reader bytes >>= fun step => next step.1 step.2) = .ok answer ↔ _
  constructor
  · intro read
    cases taken : reader bytes with
    | error fault =>
        rw [taken] at read
        contradiction
    | ok step =>
        rw [taken] at read
        exact ⟨step.1, step.2, rfl, read⟩
  · intro split
    rcases split with ⟨value, rest, taken, read⟩
    rw [taken]
    exact read

theorem map_eq_ok {f : α → β} {value : β} :
    (f <$> reader) bytes = .ok (value, rest) ↔
      ∃ source, reader bytes = .ok (source, rest) ∧ f source = value := by
  rw [← bind_pure_comp, bind_eq_ok]
  constructor
  · intro split
    rcases split with ⟨source, left, taken, read⟩
    cases read
    exact ⟨source, taken, rfl⟩
  · intro split
    rcases split with ⟨source, taken, rfl⟩
    exact ⟨source, rest, taken, rfl⟩

namespace Sound

theorem fail {fault : Fault} : Sound (fail fault) form := by
  intro bytes value rest read
  contradiction

theorem pure {value : α} (empty : [] ∈ form value) : Sound (pure value) form := by
  intro bytes answer rest read
  cases read
  exact ⟨[], empty, rfl⟩

/-- After the front that the first reader takes, the second one has to complete a form. -/
theorem bind (first : Sound reader form)
    (second : ∀ value, ∀ front ∈ form value,
      Sound (next value) fun answer => (target answer).leftQuotient front) :
    Sound (reader >>= next) target := by
  intro bytes answer rest read
  obtain ⟨value, middle, readFirst, readSecond⟩ := bind_eq_ok.mp read
  obtain ⟨front, frontForm, rfl⟩ := first readFirst
  obtain ⟨back, backForm, rfl⟩ := second value front frontForm readSecond
  exact ⟨front ++ back, backForm, List.append_assoc ..⟩

theorem map {f : α → β} (sound : Sound reader form)
    (forms : ∀ value, ∀ front ∈ form value, front ∈ target (f value)) :
    Sound (f <$> reader) target := by
  intro bytes answer rest read
  obtain ⟨value, readValue, rfl⟩ := map_eq_ok.mp read
  obtain ⟨front, frontForm, rfl⟩ := sound readValue
  exact ⟨front, forms value front frontForm, rfl⟩

theorem last {f : α → β} (sound : Sound reader form)
    (forms : ∀ value, ∀ front ∈ form value, front ∈ target (f value)) :
    Sound (reader >>= fun value => Pure.pure (f value)) target := by
  rw [bind_pure_comp]
  exact sound.map forms

theorem done {value : α} {front : List UInt8} (whole : front ∈ form value) :
    Sound (Pure.pure value) fun answer => (form answer).leftQuotient front :=
  pure (by rwa [Language.mem_leftQuotient, List.append_nil])

theorem many (item : Sound reader form) (count : Nat) :
    Sound (many reader count) fun items =>
      {bytes | items.length = count ∧ bytes ∈ Form.sequence form items} := by
  induction count with
  | zero => exact pure ⟨rfl, rfl⟩
  | succ count induction =>
      apply item.bind
      intro first front firstForm
      apply induction.last
      intro others back othersForm
      exact ⟨congrArg Nat.succ othersForm.1, Language.append_mem_mul firstForm othersForm.2⟩

end Sound

namespace Takes

variable {bound : Nat} {front back : Language UInt8} {value : α} {answer : β}

theorem pure : Takes bound (pure value) 1 value := by
  intro bytes empty _ rest
  cases empty
  rfl

theorem bind (first : Takes bound reader front value) (second : Takes bound (next value) back answer) :
    Takes bound (reader >>= next) (front * back) answer := by
  intro bytes form short rest
  obtain ⟨before, beforeForm, after, afterForm, rfl⟩ := Language.mem_mul.mp form
  rw [List.length_append] at short
  rw [List.append_assoc]
  exact bind_eq_ok.mpr ⟨value, after ++ rest, first before beforeForm (by omega) _,
    second after afterForm (by omega) rest⟩

theorem map {f : α → β} (takes : Takes bound reader front value) :
    Takes bound (f <$> reader) front (f value) := by
  intro bytes form short rest
  exact map_eq_ok.mpr ⟨value, takes bytes form short rest, rfl⟩

theorem last {f : α → β} (takes : Takes bound reader front value) :
    Takes bound (reader >>= fun value => Pure.pure (f value)) front (f value) := by
  rw [bind_pure_comp]
  exact takes.map

theorem many {items : List α} (item : ∀ value ∈ items, Takes bound reader (form value) value) :
    Takes bound (many reader items.length) (Form.sequence form items) items := by
  induction items with
  | nil => exact pure
  | cons first others induction =>
      have firstTakes := item first List.mem_cons_self
      have othersTake := induction fun value member => item value (List.mem_cons_of_mem _ member)
      exact firstTakes.bind othersTake.last

end Takes

end ScalarLowering.Wire.Reader
