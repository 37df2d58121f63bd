import ScalarLowering.Proofs.Wire.Exactness

/-!
What bytes decide that were read so far. An answer takes bytes from the front and does not look at the
others, and a value that is at fault stays at fault, so neither depends on what follows. The one thing
that more bytes can change is that there were too few of them.
-/

namespace ScalarLowering.Wire

/-- The faults of an input that ends too soon. Every other fault is about bytes that are there. -/
inductive Fault.EndsShort : Fault → Prop
  | endOfInput : EndsShort .endOfInput
  | shortText : EndsShort .shortText

namespace Reader

variable {α β : Type} {reader : Reader α} {next : α → Reader β}

theorem bind_eq_error {bytes : List UInt8} {fault : Fault} :
    (reader >>= next) bytes = .error fault ↔ reader bytes = .error fault ∨
      ∃ value rest, reader bytes = .ok (value, rest) ∧ next value rest = .error fault := by
  change (reader bytes >>= fun step => next step.1 step.2) = .error fault ↔ _
  cases taken : reader bytes with
  | error found => simp [bind, Except.bind]
  | ok step =>
      rcases step with ⟨value, rest⟩
      simp [bind, Except.bind]

/-- What is decided by some bytes is decided by every continuation of them. -/
structure Decisive (reader : Reader α) : Prop where
  answer : ∀ {bytes value rest}, reader bytes = .ok (value, rest) →
    ∀ more, reader (bytes ++ more) = .ok (value, rest ++ more)
  fault : ∀ {bytes fault}, reader bytes = .error fault → ¬ fault.EndsShort →
    ∀ more, reader (bytes ++ more) = .error fault

namespace Decisive

theorem pure (value : α) : Decisive (pure value) where
  answer read more := by
    cases read
    rfl
  fault refused := by contradiction

theorem fail (fault : Fault) : Decisive (fail fault : Reader α) where
  answer read := by contradiction
  fault refused _ _ := refused

theorem bind (first : Decisive reader) (second : ∀ value, Decisive (next value)) :
    Decisive (reader >>= next) where
  answer read more := by
    obtain ⟨value, middle, readFirst, readSecond⟩ := bind_eq_ok.mp read
    exact bind_eq_ok.mpr
      ⟨value, middle ++ more, first.answer readFirst more, (second value).answer readSecond more⟩
  fault refused about more := by
    rcases bind_eq_error.mp refused with refusedFirst | ⟨value, middle, readFirst, refusedSecond⟩
    · exact bind_eq_error.mpr (.inl (first.fault refusedFirst about more))
    · exact bind_eq_error.mpr (.inr ⟨value, middle ++ more, first.answer readFirst more,
        (second value).fault refusedSecond about more⟩)

theorem map (f : α → β) (decisive : Decisive reader) : Decisive (f <$> reader) := by
  rw [← bind_pure_comp]
  exact decisive.bind fun value => pure (f value)

theorem many (item : Decisive reader) (count : Nat) : Decisive (many reader count) := by
  induction count with
  | zero => exact pure []
  | succ count induction => exact item.bind fun first => induction.bind fun others => pure _

end Decisive

theorem byte_decisive {short : Fault} (ends : short.EndsShort) : Decisive (byte short) where
  answer := by
    intro bytes value rest read more
    cases bytes with
    | nil => contradiction
    | cons first others =>
        cases read
        rfl
  fault := by
    intro bytes fault refused about more
    cases bytes with
    | nil =>
        cases refused
        exact absurd ends about
    | cons first others => contradiction

theorem octet_decisive : Decisive octet := byte_decisive .endOfInput

theorem fixed_decisive (width : Nat) : Decisive (fixed width) :=
  (octet_decisive.many width).map ofLittleEndian

theorem word32_decisive : Decisive word32 := (fixed_decisive 4).map UInt32.ofNat

theorem bool_decisive : Decisive bool := by
  apply octet_decisive.bind
  intro byte
  split
  · exact .pure false
  · exact .pure true
  · exact .fail _

theorem text_decisive : Decisive text := by
  apply (fixed_decisive 8).bind
  intro length
  apply ((byte_decisive .shortText).many length).bind
  intro bytes
  split
  · exact .pure _
  · exact .fail _

theorem list_decisive {item : Reader α} (decisive : Decisive item) : Decisive (list item) :=
  (fixed_decisive 8).bind fun count => decisive.many count

theorem option_decisive {item : Reader α} (decisive : Decisive item) : Decisive (option item) := by
  apply octet_decisive.bind
  intro byte
  split
  · exact .pure none
  · exact decisive.map some
  · exact .fail _

theorem sign_decisive : Decisive sign := by
  apply octet_decisive.bind
  intro byte
  dsimp only
  split
  · exact .pure _
  · exact .fail _

theorem hugeInt_decisive : Decisive hugeInt :=
  sign_decisive.bind fun _ => (list_decisive word32_decisive).bind fun _ => .pure _

theorem type_decisive (budget : Nat) : Decisive (type budget) := by
  induction budget with
  | zero => exact .fail _
  | succ budget induction =>
      apply word32_decisive.bind
      intro variant
      split
      case h_6 =>
        exact word32_decisive.bind fun precision => word32_decisive.bind fun scale => .pure _
      case h_7 =>
        exact (list_decisive text_decisive).bind fun names =>
          (list_decisive induction).bind fun types => .pure _
      case h_8 => exact .fail _
      all_goals exact .pure _

theorem datum_decisive : Decisive datum := by
  apply word32_decisive.bind
  intro variant
  split
  · exact bool_decisive.map _
  · exact (fixed_decisive 1).map _
  · exact (fixed_decisive 2).map _
  · exact (fixed_decisive 4).map _
  · exact (fixed_decisive 8).map _
  · exact (fixed_decisive 8).map _
  · exact text_decisive.map _
  · exact text_decisive.map _
  · exact hugeInt_decisive.map _
  · exact .fail _

theorem expr_decisive (budget : Nat) : Decisive (expr budget) := by
  induction budget with
  | zero => exact .fail _
  | succ budget induction =>
      apply word32_decisive.bind
      intro variant
      split
      · exact (type_decisive budget).bind fun type => datum_decisive.bind fun value =>
          (option_decisive (list_decisive octet_decisive)).bind fun vector => .pure _
      · exact (type_decisive budget).bind fun type => (list_decisive induction).bind fun inputs =>
          text_decisive.bind fun function => .pure _
      · exact (type_decisive budget).bind fun type => text_decisive.bind fun field => .pure _
      · exact .fail _

end Reader

/-- More bytes come with a larger budget, which gives the same on the bytes before them. -/
theorem readExpr_decisive : Reader.Decisive readExpr := by
  have larger (bytes more : List UInt8) :
      Reader.expr (bytes ++ more).length bytes = readExpr bytes := by
    rw [List.length_append]
    exact (Reader.expr_agree bytes.length more.length bytes (Nat.le_refl _)).symm
  constructor
  · intro bytes expr rest read more
    rw [← larger bytes more] at read
    exact (Reader.expr_decisive _).answer read more
  · intro bytes fault refused about more
    rw [← larger bytes more] at refused
    exact (Reader.expr_decisive _).fault refused about more

end ScalarLowering.Wire

namespace ScalarLowering.EngineExpr

open Wire

theorem unreadable_of_ofBytes {bytes : List UInt8} {refusal : Refusal}
    (refused : ofBytes bytes = .error refusal) : ∃ fault, refusal = .unreadable fault := by
  unfold ofBytes at refused
  cases read : readExpr bytes with
  | error fault =>
      rw [read] at refused
      cases refused
      exact ⟨fault, rfl⟩
  | ok answer =>
      rw [read] at refused
      contradiction

/-- An expression or a value at fault is found whatever follows, and what follows an expression is left
over. -/
theorem ofBytes_append (bytes more : List UInt8) :
    (∀ expr, ofBytes bytes = .ok expr → ofBytes (bytes ++ more) = .ok expr) ∧
    (∀ refusal, ofBytes bytes = .error refusal →
      (∀ fault, fault.EndsShort → refusal ≠ .unreadable fault) →
      ofBytes (bytes ++ more) = .error refusal) ∧
    ∀ expr rest, readExpr bytes = .ok (expr, rest) →
      readExpr (bytes ++ more) = .ok (expr, rest ++ more) := by
  refine ⟨?_, ?_, fun expr rest read => readExpr_decisive.answer read more⟩
  · intro expr found
    obtain ⟨rest, read⟩ := ofBytes_eq_ok_iff.mp found
    exact ofBytes_eq_ok_iff.mpr ⟨rest ++ more, readExpr_decisive.answer read more⟩
  · intro refusal refused about
    obtain ⟨fault, rfl⟩ := unreadable_of_ofBytes refused
    have notShort : ¬ fault.EndsShort := fun short => about fault short rfl
    rw [ofBytes_eq_error_iff] at refused ⊢
    exact readExpr_decisive.fault refused notShort more

/-- The column `a`, and a text of one byte that begins a character, which the byte behind it does not
complete. -/
theorem ofBytes_append_column :
    ofBytes ([2, 0, 0, 0, 0, 0, 0, 0, 1, 0, 0, 0, 0, 0, 0, 0, 97] ++ [2, 0]) =
      .ok (fieldAccess .boolean "a") ∧
    ofBytes ([2, 0, 0, 0, 0, 0, 0, 0, 1, 0, 0, 0, 0, 0, 0, 0, 0xC3] ++ [0xA9]) =
      .error (.unreadable (.badText (.incomplete 0))) := by
  have column : ofBytes [2, 0, 0, 0, 0, 0, 0, 0, 1, 0, 0, 0, 0, 0, 0, 0, 97] =
      .ok (fieldAccess .boolean "a") := rfl
  have unfinished : ofBytes [2, 0, 0, 0, 0, 0, 0, 0, 1, 0, 0, 0, 0, 0, 0, 0, 0xC3] =
      .error (.unreadable (.badText (.incomplete 0))) := rfl
  refine ⟨(ofBytes_append _ [2, 0]).1 _ column, (ofBytes_append _ [0xA9]).2.1 _ unfinished ?_⟩
  rintro fault (_ | _) <;> decide

end ScalarLowering.EngineExpr
