import ScalarLowering.Proofs.Wire.Acceptance

/-!
The readers of fields accept the forms of their fields.
-/

namespace ScalarLowering.Wire.Reader

variable {α : Type} {bound : Nat}

theorem ofLittleEndian_eq_number (bytes : List UInt8) : ofLittleEndian bytes = Form.number bytes := by
  induction bytes with
  | nil => rfl
  | cons byte bytes induction =>
      rw [ofLittleEndian, induction, Form.number, Form.number, List.map_cons, Nat.ofDigits_cons]

theorem ofLimbs_eq_limbValue (limbs : List UInt32) : ofLimbs limbs = Form.limbValue limbs := by
  induction limbs with
  | nil => rfl
  | cons limb limbs induction =>
      rw [ofLimbs, induction, Form.limbValue, Form.limbValue, List.map_cons, Nat.ofDigits_cons]
      rfl

theorem take_sound (short : Fault) (count : Nat) :
    Sound (take short count) fun taken => {bytes | bytes = taken ∧ taken.length = count} := by
  intro bytes taken rest read
  by_cases enough : count ≤ bytes.length
  · have split := take_append short (bytes.take count) (bytes.drop count)
    rw [List.take_append_drop, List.length_take_of_le enough, read] at split
    cases split
    exact ⟨_, ⟨rfl, List.length_take_of_le enough⟩, List.take_append_drop count bytes⟩
  · rw [take_eq_error (by omega)] at read
    contradiction

theorem take_takes (short : Fault) (taken : List UInt8) :
    Takes bound (take short taken.length) {taken} taken := by
  intro bytes same _ rest
  cases same
  exact take_append short taken rest

theorem octet_sound : Sound octet fun byte => Form.unsigned 1 byte.toNat := by
  intro bytes byte rest read
  cases bytes with
  | nil => contradiction
  | cons first others =>
      cases read
      exact ⟨[byte], ⟨rfl, Nat.ofDigits_singleton⟩, rfl⟩

theorem octet_takes (byte : UInt8) : Takes bound octet (Form.unsigned 1 byte.toNat) byte := by
  intro bytes form _ rest
  rcases form with ⟨one, spelled⟩
  obtain ⟨first, rfl⟩ := List.length_eq_one_iff.mp one
  rw [Form.number, List.map_singleton, Nat.ofDigits_singleton, UInt8.toNat_inj] at spelled
  rw [spelled]
  rfl

theorem fixed_sound (width : Nat) : Sound (fixed width) (Form.unsigned width) := by
  apply (take_sound .endOfInput width).map
  intro taken front read
  rcases read with ⟨rfl, length⟩
  exact ⟨length, (ofLittleEndian_eq_number front).symm⟩

theorem fixed_takes (width value : Nat) :
    Takes bound (fixed width) (Form.unsigned width value) value := by
  intro bytes form _ rest
  rcases form with ⟨rfl, rfl⟩
  have read := take_append .endOfInput bytes rest
  exact map_eq_ok.mpr ⟨bytes, read, ofLittleEndian_eq_number bytes⟩

theorem fixed_map_takes {width code : Nat} {f : Nat → α} {value : α} (same : f code = value) :
    Takes bound (f <$> fixed width) (Form.unsigned width code) value := by
  rw [← same]
  exact (fixed_takes width code).map

theorem word32_sound : Sound word32 fun word => Form.unsigned 4 word.toNat := by
  apply (fixed_sound 4).map
  intro value front spelled
  have bound := Form.lt_of_mem_unsigned spelled
  rwa [UInt32.toNat_ofNat_of_lt' bound]

theorem word32_takes (value : Nat) :
    Takes bound word32 (Form.unsigned 4 value) (UInt32.ofNat value) :=
  (fixed_takes 4 value).map

theorem word32_takes_toNat (word : UInt32) :
    Takes bound word32 (Form.unsigned 4 word.toNat) word := by
  have takes : Takes bound word32 _ _ := word32_takes word.toNat
  rwa [UInt32.ofNat_toNat] at takes

theorem bool_sound : Sound bool Form.truth := by
  apply octet_sound.bind
  intro byte front spelled
  split
  · exact .done spelled
  · exact .done spelled
  · exact .fail

theorem bool_takes (value : Bool) : Takes bound bool (Form.truth value) value := by
  rw [← mul_one (Form.truth value)]
  cases value with
  | false => exact (octet_takes 0).bind .pure
  | true => exact (octet_takes 1).bind .pure

theorem text_sound : Sound text Form.text := by
  apply (fixed_sound 8).bind
  intro length front spelled
  apply (take_sound .shortText length).bind
  intro taken body read
  rcases read with ⟨rfl, length⟩
  split
  next text decoded =>
    apply Sound.pure
    have written := Utf8.decode_eq_ok_iff.mp decoded
    rw [← length, written, Utf8.length_encode] at spelled
    rw [Language.mem_leftQuotient, Language.mem_leftQuotient, List.append_nil, written]
    exact Language.append_mem_mul spelled (Utf8.encode_eq_toUTF8 text)
  next => exact .fail

theorem text_takes (value : String) : Takes bound text (Form.text value) value := by
  have decoded : Utf8.decode (Utf8.encode value) = .ok value := Utf8.decode_eq_ok_iff.mpr rfl
  rw [Form.text, ← Utf8.encode_eq_toUTF8, ← Utf8.length_encode, ← mul_one {Utf8.encode value}]
  apply (fixed_takes 8 _).bind
  apply (take_takes .shortText _).bind
  rw [decoded]
  exact .pure

theorem list_sound {item : Reader α} {form : α → Language UInt8} (sound : Sound item form) :
    Sound (list item) (Form.counted form) := by
  apply (fixed_sound 8).bind
  intro count front spelled bytes items rest read
  obtain ⟨back, ⟨rfl, backForm⟩, rfl⟩ := sound.many count read
  exact ⟨back, Language.append_mem_mul spelled backForm, rfl⟩

theorem list_takes {item : Reader α} {form : α → Language UInt8} {items : List α}
    (takes : ∀ value ∈ items, Takes bound item (form value) value) :
    Takes bound (list item) (Form.counted form items) items :=
  (fixed_takes 8 items.length).bind (.many takes)

theorem option_sound {item : Reader α} {form : α → Language UInt8} (sound : Sound item form) :
    Sound (option item) (Form.optional form) := by
  apply octet_sound.bind
  intro byte front spelled
  split
  · exact .done spelled
  · exact sound.map fun value back backForm => Language.append_mem_mul spelled backForm
  · exact .fail

theorem option_takes {item : Reader α} {form : α → Language UInt8} {value : Option α}
    (takes : ∀ held ∈ value, Takes bound item (form held) held) :
    Takes bound (option item) (Form.optional form value) value := by
  cases value with
  | none =>
      rw [Form.optional, ← mul_one (Form.unsigned 1 0)]
      exact (octet_takes 0).bind .pure
  | some held => exact (octet_takes 1).bind (takes held rfl).map

theorem sign_sound : Sound sign fun value =>
    {bytes | (value = -1 ∨ value = 0 ∨ value = 1) ∧ bytes ∈ Form.signed 1 value.toInt} := by
  apply octet_sound.bind
  intro byte front spelled
  dsimp only
  split
  next known =>
    refine .pure ⟨known, ?_⟩
    rwa [List.append_nil, Form.signed_int8]
  next => exact .fail

theorem sign_takes {value : Int8} (known : value = -1 ∨ value = 0 ∨ value = 1) :
    Takes bound sign (Form.signed 1 value.toInt) value := by
  rw [Form.signed_int8, ← mul_one (Form.unsigned 1 _)]
  apply (octet_takes value.toUInt8).bind
  rw [Int8.toInt8_toUInt8, if_pos known]
  exact .pure

theorem signed_magnitude (sign magnitude : Int) :
    (if sign = 0 then 0 else sign * magnitude) = sign * magnitude := by
  split
  next zero => rw [zero, zero_mul]
  next => rfl

theorem hugeInt_sound : Sound hugeInt Form.wideInt := by
  apply sign_sound.bind
  intro sign front signForm
  rcases signForm with ⟨known, spelled⟩
  apply (list_sound word32_sound).last
  intro limbs back limbsForm
  refine ⟨sign.toInt, limbs, ?_, ?_, Language.append_mem_mul spelled limbsForm⟩
  · rcases known with rfl | rfl | rfl <;> decide
  · rw [signed_magnitude, ofLimbs_eq_limbValue]

theorem hugeInt_takes (value : Int) : Takes bound hugeInt (Form.wideInt value) value := by
  intro bytes form short rest
  rcases form with ⟨sign, limbs, known, rfl, form⟩
  -- The grammar knows the sign as an integer, and the reader as a word.
  obtain ⟨word, rfl, wordKnown⟩ :
      ∃ word : Int8, word.toInt = sign ∧ (word = -1 ∨ word = 0 ∨ word = 1) := by
    rcases known with rfl | rfl | rfl
    · exact ⟨-1, by decide⟩
    · exact ⟨0, by decide⟩
    · exact ⟨1, by decide⟩
  have limbsTake : Takes bound (list word32) (Form.counted Form.limb limbs) limbs :=
    list_takes fun limb _ => word32_takes_toNat limb
  have takes : Takes bound hugeInt (Form.signed 1 word.toInt * Form.counted Form.limb limbs)
      (word.toInt * ofLimbs limbs) :=
    (sign_takes wordKnown).bind limbsTake.last
  rw [ofLimbs_eq_limbValue, ← signed_magnitude] at takes
  exact takes bytes form short rest

end ScalarLowering.Wire.Reader
