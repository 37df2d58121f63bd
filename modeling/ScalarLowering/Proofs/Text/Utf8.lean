import ScalarLowering.Text.Utf8

/-!
Reading text from bytes undoes writing it, and accepts nothing else. The two meet in a grammar of
single characters: the first byte fixes how many bytes follow it, and the range of the second one
keeps every code point to one spelling.
-/

namespace ScalarLowering.Utf8

/-- A byte that can follow the first one of a character, where no narrower range applies. -/
def IsTail (byte : UInt8) : Prop := 0x80 ≤ byte.toNat ∧ byte.toNat ≤ 0xBF

inductive Spells : Char → List UInt8 → Prop
  | one {first : UInt8} (ascii : first.toNat < 0x80) : Spells (Char.ofNat first.toNat) [first]
  | two {first second : UInt8} (lead : 0xC2 ≤ first.toNat ∧ first.toNat < 0xE0)
      (tail : IsTail second) :
      Spells (Char.ofNat ((first.toNat - 0xC0) * 64 + second.toNat % 64)) [first, second]
  | three {first second third : UInt8} (lead : 0xE0 ≤ first.toNat ∧ first.toNat < 0xF0)
      (tail : IsTail second) (notOverlong : first.toNat = 0xE0 → 0xA0 ≤ second.toNat)
      (noSurrogate : first.toNat = 0xED → second.toNat ≤ 0x9F) (tail' : IsTail third) :
      Spells (Char.ofNat
        (((first.toNat - 0xE0) * 64 + second.toNat % 64) * 64 + third.toNat % 64))
        [first, second, third]
  | four {first second third fourth : UInt8} (lead : 0xF0 ≤ first.toNat ∧ first.toNat ≤ 0xF4)
      (tail : IsTail second) (notOverlong : first.toNat = 0xF0 → 0x90 ≤ second.toNat)
      (bounded : first.toNat = 0xF4 → second.toNat ≤ 0x8F)
      (tail' : IsTail third) (tail'' : IsTail fourth) :
      Spells (Char.ofNat
        ((((first.toNat - 0xF0) * 64 + second.toNat % 64) * 64 + third.toNat % 64) * 64 +
          fourth.toNat % 64))
        [first, second, third, fourth]

theorem toNat_ofNat_of_isValidChar (value : Nat) (valid : value.isValidChar) :
    (Char.ofNat value).val.toNat = value := by
  unfold Char.ofNat
  rw [dif_pos valid]
  rfl

/-- No character has two spellings. -/
theorem encodeChar_of_spells {c : Char} {bytes : List UInt8} (spelled : Spells c bytes) :
    String.utf8EncodeChar c = bytes := by
  -- The ranges of the bytes put the code point in the span that is written with so many bytes.
  cases spelled with
  | @one first ascii =>
      have value := toNat_ofNat_of_isValidChar first.toNat (Or.inl (by omega))
      simp only [String.utf8EncodeChar, value]
      rw [if_pos (by omega), UInt8.ofNat_toNat]
  | @two first second lead tail =>
      unfold IsTail at tail
      have value := toNat_ofNat_of_isValidChar
        ((first.toNat - 0xC0) * 64 + second.toNat % 64) (Or.inl (by omega))
      simp only [String.utf8EncodeChar, value]
      rw [if_neg (by omega), if_pos (by omega)]
      simp only [List.cons.injEq, and_true, ← UInt8.toNat_inj, UInt8.toNat_ofNat']
      omega
  | @three first second third lead tail notOverlong noSurrogate tail' =>
      unfold IsTail at tail tail'
      have value := toNat_ofNat_of_isValidChar
        (((first.toNat - 0xE0) * 64 + second.toNat % 64) * 64 + third.toNat % 64)
        (by unfold Nat.isValidChar; omega)
      simp only [String.utf8EncodeChar, value]
      rw [if_neg (by omega), if_neg (by omega), if_pos (by omega)]
      simp only [List.cons.injEq, and_true, ← UInt8.toNat_inj, UInt8.toNat_ofNat']
      omega
  | @four first second third fourth lead tail notOverlong bounded tail' tail'' =>
      unfold IsTail at tail tail' tail''
      have value := toNat_ofNat_of_isValidChar
        ((((first.toNat - 0xF0) * 64 + second.toNat % 64) * 64 + third.toNat % 64) * 64 +
          fourth.toNat % 64)
        (by unfold Nat.isValidChar; omega)
      simp only [String.utf8EncodeChar, value]
      rw [if_neg (by omega), if_neg (by omega), if_neg (by omega)]
      simp only [List.cons.injEq, and_true, ← UInt8.toNat_inj, UInt8.toNat_ofNat']
      omega

theorem toNat_tail (value : Nat) : (UInt8.ofNat (value % 0x40 + 0x80)).toNat = value % 64 + 0x80 := by
  rw [UInt8.toNat_ofNat']
  omega

theorem isTail_tail (value : Nat) : IsTail (UInt8.ofNat (value % 0x40 + 0x80)) := by
  rw [IsTail, toNat_tail]
  omega

theorem spells_encodeChar (c : Char) : Spells c (String.utf8EncodeChar c) := by
  have valid : c.val.toNat < 0xD800 ∨ 0xDFFF < c.val.toNat ∧ c.val.toNat < 0x110000 := c.valid
  have same : ∀ {value}, value = c.val.toNat → Char.ofNat value = c := by
    intro value same
    rw [same]
    exact Char.ofNat_toNat c
  -- In each branch the written bytes are spelled by some character, and that one is `c`.
  fun_cases String.utf8EncodeChar c with
  | case1 value one =>
      have first : (UInt8.ofNat value).toNat = value := by
        rw [UInt8.toNat_ofNat']
        omega
      have spelled : Spells _ [UInt8.ofNat value] := .one (by omega)
      rwa [same first] at spelled
  | case2 value notOne two =>
      have first : (UInt8.ofNat (value / 64 % 0x20 + 0xc0)).toNat = value / 64 + 0xC0 := by
        rw [UInt8.toNat_ofNat']
        omega
      have spelled : Spells _ [UInt8.ofNat (value / 64 % 0x20 + 0xc0), _] :=
        .two (by omega) (isTail_tail value)
      rwa [same (by rw [first, toNat_tail]; omega)] at spelled
  | case3 value notOne notTwo three =>
      have first : (UInt8.ofNat (value / 4096 % 0x10 + 0xe0)).toNat = value / 4096 + 0xE0 := by
        rw [UInt8.toNat_ofNat']
        omega
      have second := toNat_tail (value / 64)
      have spelled : Spells _ [UInt8.ofNat (value / 4096 % 0x10 + 0xe0), _, _] :=
        .three (by omega) (isTail_tail (value / 64)) (by omega) (by omega) (isTail_tail value)
      rwa [same (by rw [first, second, toNat_tail]; omega)] at spelled
  | case4 value notOne notTwo notThree =>
      have first : (UInt8.ofNat (value / 262144 % 0x08 + 0xf0)).toNat = value / 262144 + 0xF0 := by
        rw [UInt8.toNat_ofNat']
        omega
      have second := toNat_tail (value / 4096)
      have spelled : Spells _ [UInt8.ofNat (value / 262144 % 0x08 + 0xf0), _, _, _] :=
        .four (by omega) (isTail_tail (value / 4096)) (by omega) (by omega)
          (isTail_tail (value / 64)) (isTail_tail value)
      rwa [same (by rw [first, second, toNat_tail, toNat_tail]; omega)] at spelled

section Lead

variable {first : UInt8}

theorem lead_one (ascii : first.toNat < 0x80) :
    lead first = .complete (Char.ofNat first.toNat) := by
  simp only [lead]
  rw [if_pos ascii]

theorem lead_two (range : 0xC2 ≤ first.toNat ∧ first.toNat < 0xE0) :
    lead first = .pending ⟨first.toNat - 0xC0, 1, 0, 0x80, 0xBF⟩ := by
  simp only [lead]
  rw [if_neg (by omega), if_neg (by omega), if_pos range.2]

theorem lead_three (range : 0xE0 ≤ first.toNat ∧ first.toNat < 0xF0) :
    lead first = .pending ⟨first.toNat - 0xE0, 1, 1,
      if first.toNat = 0xE0 then 0xA0 else 0x80, if first.toNat = 0xED then 0x9F else 0xBF⟩ := by
  simp only [lead]
  rw [if_neg (by omega), if_neg (by omega), if_neg (by omega)]
  by_cases overlong : first.toNat = 0xE0
  · simp [overlong]
  · by_cases surrogate : first.toNat = 0xED
    · simp [surrogate]
    · rw [if_neg overlong, if_neg surrogate, if_pos range.2, if_neg overlong, if_neg surrogate]

theorem lead_four (range : 0xF0 ≤ first.toNat ∧ first.toNat ≤ 0xF4) :
    lead first = .pending ⟨first.toNat - 0xF0, 1, 2,
      if first.toNat = 0xF0 then 0x90 else 0x80, if first.toNat = 0xF4 then 0x8F else 0xBF⟩ := by
  simp only [lead]
  rw [if_neg (by omega), if_neg (by omega), if_neg (by omega), if_neg (by omega),
    if_neg (by omega), if_neg (by omega)]
  by_cases overlong : first.toNat = 0xF0
  · simp [overlong]
  · by_cases last : first.toNat = 0xF4
    · simp [last]
    · rw [if_neg overlong, if_pos (by omega), if_neg overlong, if_neg last]

theorem lead_invalid (outside : 0x80 ≤ first.toNat ∧ first.toNat < 0xC2 ∨ 0xF4 < first.toNat) :
    lead first = .invalid := by
  simp only [lead]
  rcases outside with ⟨low, high⟩ | high
  · rw [if_neg (by omega), if_pos high]
  · rw [if_neg (by omega), if_neg (by omega), if_neg (by omega), if_neg (by omega),
      if_neg (by omega), if_neg (by omega), if_neg (by omega), if_neg (by omega),
      if_neg (by omega)]

end Lead

section Steps

variable {index value seen after : Nat} {first byte : UInt8} {bytes rest : List UInt8}
  {chars others : List Char}

theorem isTail_iff : (0x80 ≤ byte ∧ byte ≤ 0xBF) ↔ IsTail byte := by
  simp only [IsTail, UInt8.le_iff_toNat_le, UInt8.reduceToNat]

theorem narrowed_iff (low high : UInt8) {overlong last : Prop} [Decidable overlong]
    [Decidable last] (lowTail : 0x80 ≤ low.toNat) (highTail : high.toNat ≤ 0xBF) :
    ((if overlong then low else 0x80) ≤ byte ∧ byte ≤ if last then high else 0xBF) ↔
      IsTail byte ∧ (overlong → low.toNat ≤ byte.toNat) ∧ (last → byte.toNat ≤ high.toNat) := by
  unfold IsTail
  simp only [UInt8.le_iff_toNat_le, apply_ite UInt8.toNat, UInt8.reduceToNat]
  by_cases isOverlong : overlong <;> by_cases isLast : last <;> simp [isOverlong, isLast] <;> omega

variable {low high : UInt8}

theorem decodeFrom_complete_eq_ok {c : Char} (whole : lead first = .complete c) :
    decodeFrom index none (first :: rest) = .ok chars ↔
      ∃ others, chars = c :: others ∧ decodeFrom (index + 1) none rest = .ok others := by
  simp only [decodeFrom, whole]
  cases later : decodeFrom (index + 1) none rest with
  | error fault => simp [Functor.map, Except.map]
  | ok others => simp [Functor.map, Except.map, eq_comm]

theorem decodeFrom_pending {p : Pending} (opened : lead first = .pending p) :
    decodeFrom index none (first :: rest) = decodeFrom index (some p) rest := by
  simp only [decodeFrom, opened]

theorem decodeFrom_last_eq_ok :
    decodeFrom index (some ⟨value, seen, 0, low, high⟩) bytes = .ok chars ↔
      ∃ byte rest others, bytes = byte :: rest ∧ (low ≤ byte ∧ byte ≤ high) ∧
        chars = Char.ofNat (value * 64 + byte.toNat % 64) :: others ∧
        decodeFrom (index + seen + 1) none rest = .ok others := by
  constructor
  · intro decoded
    cases bytes with
    | nil => contradiction
    | cons byte rest =>
        by_cases inside : low ≤ byte ∧ byte ≤ high
        · simp only [decodeFrom, if_pos inside] at decoded
          cases later : decodeFrom (index + seen + 1) none rest with
          | error fault =>
              rw [later] at decoded
              contradiction
          | ok others =>
              rw [later] at decoded
              cases decoded
              exact ⟨byte, rest, others, rfl, inside, rfl, later⟩
        · simp only [decodeFrom, if_neg inside] at decoded
          contradiction
  · intro split
    rcases split with ⟨byte, rest, others, rfl, inside, rfl, later⟩
    simp only [decodeFrom, if_pos inside, later]
    rfl

theorem decodeFrom_more_eq_ok :
    decodeFrom index (some ⟨value, seen, after + 1, low, high⟩) bytes = .ok chars ↔
      ∃ byte rest, bytes = byte :: rest ∧ (low ≤ byte ∧ byte ≤ high) ∧
        decodeFrom index (some ⟨value * 64 + byte.toNat % 64, seen + 1, after, 0x80, 0xBF⟩) rest =
          .ok chars := by
  constructor
  · intro decoded
    cases bytes with
    | nil => contradiction
    | cons byte rest =>
        by_cases inside : low ≤ byte ∧ byte ≤ high
        · simp only [decodeFrom, if_pos inside] at decoded
          exact ⟨byte, rest, rfl, inside, decoded⟩
        · simp only [decodeFrom, if_neg inside] at decoded
          contradiction
  · intro split
    rcases split with ⟨byte, rest, rfl, inside, later⟩
    simp only [decodeFrom, if_pos inside]
    exact later

end Steps

section Text

variable {index : Nat} {bytes front rest : List UInt8} {chars others : List Char} {c : Char}

theorem decodeFrom_spelled (spelled : Spells c front)
    (later : decodeFrom (index + front.length) none rest = .ok others) :
    decodeFrom index none (front ++ rest) = .ok (c :: others) := by
  cases spelled with
  | one ascii => exact (decodeFrom_complete_eq_ok (lead_one ascii)).mpr ⟨others, rfl, later⟩
  | two range tail =>
      rw [List.cons_append, decodeFrom_pending (lead_two range)]
      exact decodeFrom_last_eq_ok.mpr ⟨_, _, _, rfl, isTail_iff.mpr tail, rfl, later⟩
  | three range tail notOverlong noSurrogate tail' =>
      have inside := (narrowed_iff 0xA0 0x9F (by decide) (by decide)).mpr
        ⟨tail, notOverlong, noSurrogate⟩
      rw [List.cons_append, decodeFrom_pending (lead_three range)]
      refine decodeFrom_more_eq_ok.mpr ⟨_, _, rfl, inside, ?_⟩
      exact decodeFrom_last_eq_ok.mpr ⟨_, _, _, rfl, isTail_iff.mpr tail', rfl, later⟩
  | four range tail notOverlong bounded tail' tail'' =>
      have inside := (narrowed_iff 0x90 0x8F (by decide) (by decide)).mpr
        ⟨tail, notOverlong, bounded⟩
      rw [List.cons_append, decodeFrom_pending (lead_four range)]
      refine decodeFrom_more_eq_ok.mpr ⟨_, _, rfl, inside, ?_⟩
      refine decodeFrom_more_eq_ok.mpr ⟨_, _, rfl, isTail_iff.mpr tail', ?_⟩
      exact decodeFrom_last_eq_ok.mpr ⟨_, _, _, rfl, isTail_iff.mpr tail'', rfl, later⟩

theorem exists_spelled {first : UInt8}
    (decoded : decodeFrom index none (first :: bytes) = .ok chars) :
    ∃ c front rest others next, Spells c front ∧ first :: bytes = front ++ rest ∧
      chars = c :: others ∧ decodeFrom next none rest = .ok others := by
  -- No other byte begins a character: 0xC0 and 0xC1 could only begin overlong forms.
  have ranges : first.toNat < 0x80 ∨ (0xC2 ≤ first.toNat ∧ first.toNat < 0xE0) ∨
      (0xE0 ≤ first.toNat ∧ first.toNat < 0xF0) ∨ (0xF0 ≤ first.toNat ∧ first.toNat ≤ 0xF4) ∨
      (0x80 ≤ first.toNat ∧ first.toNat < 0xC2 ∨ 0xF4 < first.toNat) := by omega
  rcases ranges with ascii | range | range | range | outside
  · obtain ⟨others, rfl, later⟩ := (decodeFrom_complete_eq_ok (lead_one ascii)).mp decoded
    exact ⟨_, [first], bytes, others, _, .one ascii, rfl, rfl, later⟩
  · rw [decodeFrom_pending (lead_two range)] at decoded
    obtain ⟨second, rest, others, rfl, inside, rfl, later⟩ := decodeFrom_last_eq_ok.mp decoded
    exact ⟨_, [first, second], rest, others, _, .two range (isTail_iff.mp inside), rfl, rfl, later⟩
  · rw [decodeFrom_pending (lead_three range)] at decoded
    obtain ⟨second, afterSecond, rfl, inside, decoded⟩ := decodeFrom_more_eq_ok.mp decoded
    obtain ⟨third, rest, others, rfl, inside', rfl, later⟩ := decodeFrom_last_eq_ok.mp decoded
    obtain ⟨tail, notOverlong, noSurrogate⟩ := (narrowed_iff 0xA0 0x9F (by decide) (by decide)).mp inside
    exact ⟨_, [first, second, third], rest, others, _,
      .three range tail notOverlong noSurrogate (isTail_iff.mp inside'), rfl, rfl, later⟩
  · rw [decodeFrom_pending (lead_four range)] at decoded
    obtain ⟨second, afterSecond, rfl, inside, decoded⟩ := decodeFrom_more_eq_ok.mp decoded
    obtain ⟨third, afterThird, rfl, inside', decoded⟩ := decodeFrom_more_eq_ok.mp decoded
    obtain ⟨fourth, rest, others, rfl, inside'', rfl, later⟩ := decodeFrom_last_eq_ok.mp decoded
    obtain ⟨tail, notOverlong, bounded⟩ := (narrowed_iff 0x90 0x8F (by decide) (by decide)).mp inside
    exact ⟨_, [first, second, third, fourth], rest, others, _,
      .four range tail notOverlong bounded (isTail_iff.mp inside') (isTail_iff.mp inside''),
      rfl, rfl, later⟩
  · simp only [decodeFrom, lead_invalid outside] at decoded
    contradiction

theorem decodeFrom_encoded (index : Nat) (chars : List Char) :
    decodeFrom index none (chars.flatMap String.utf8EncodeChar) = .ok chars := by
  induction chars generalizing index with
  | nil => rfl
  | cons c chars induction => exact decodeFrom_spelled (spells_encodeChar c) (induction _)

theorem encoded_of_decodeFrom (decoded : decodeFrom index none bytes = .ok chars) :
    bytes = chars.flatMap String.utf8EncodeChar := by
  induction chars generalizing index bytes with
  | nil =>
      cases bytes with
      | nil => rfl
      | cons first bytes =>
          obtain ⟨_, _, _, _, _, _, _, absurdity, _⟩ := exists_spelled decoded
          contradiction
  | cons c chars induction =>
      cases bytes with
      | nil => simp [decodeFrom] at decoded
      | cons first bytes =>
          obtain ⟨_, front, rest, _, _, spelled, split, same, later⟩ := exists_spelled decoded
          cases same
          rw [split, induction later, List.flatMap_cons, encodeChar_of_spells spelled]

/-- Exactly the bytes of a text read as that text. -/
theorem decode_eq_ok_iff {text : String} : decode bytes = .ok text ↔ bytes = encode text := by
  constructor
  · intro decoded
    unfold decode at decoded
    cases chars : decodeFrom 0 none bytes with
    | error fault =>
        rw [chars] at decoded
        contradiction
    | ok found =>
        rw [chars] at decoded
        cases decoded
        rw [encode, String.toList_ofList]
        exact encoded_of_decodeFrom chars
  · intro written
    rw [written, decode, encode, decodeFrom_encoded]
    exact congrArg Except.ok String.ofList_toList

theorem encode_eq_toUTF8 (text : String) : encode text = text.toUTF8.data.toList := by
  change _ = text.toByteArray.data.toList
  rw [← String.utf8Encode_toList, List.utf8Encode, List.data_toByteArray]
  rfl

theorem length_encode (text : String) : (encode text).length = text.utf8ByteSize := by
  rw [encode_eq_toUTF8]
  rfl

end Text

end ScalarLowering.Utf8
