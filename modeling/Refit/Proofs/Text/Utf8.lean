import Refit.Text.Utf8

/-!
Decoding undoes encoding, and only the bytes of a text decode to it. Offsets between two characters of a
text are its boundaries; the bytes between two boundaries are again the bytes of a text.
-/

open List

namespace Refit.Text.Utf8

variable {first second third : UInt8} {rest bytes after : List UInt8} {c : Char} {length position offset skip : Nat}
  {chars found : List Char}

/-- The bytes of characters, one character after the other. -/
def encodeChars (chars : List Char) : List UInt8 := chars.flatMap String.utf8EncodeChar

@[simp] theorem encodeChars_nil : encodeChars [] = [] := rfl

@[simp] theorem encodeChars_cons (c : Char) (chars : List Char) :
    encodeChars (c :: chars) = String.utf8EncodeChar c ++ encodeChars chars := rfl

@[simp] theorem encodeChars_append (left right : List Char) :
    encodeChars (left ++ right) = encodeChars left ++ encodeChars right := by
  simp [encodeChars]

private theorem toList_loop_eq (bytes : ByteArray) (index : Nat) (seen : List UInt8) :
    ByteArray.toList.loop bytes index seen = seen.reverse ++ bytes.data.toList.drop index := by
  fun_induction ByteArray.toList.loop bytes index seen with
  | case1 index seen inside ih =>
    have bound : index < bytes.data.toList.length := by simpa using inside
    have byte : bytes.get! index = bytes.data.toList[index] := by
      simp [ByteArray.get!, inside]
    rw [ih, drop_eq_getElem_cons bound, byte]
    simp
  | case2 index seen outside =>
    have bound : bytes.data.toList.length ≤ index := by simpa using outside
    rw [drop_eq_nil_of_le bound]
    simp

theorem encode_eq (text : String) : encode text = encodeChars text.toList := by
  have bytes : text.toByteArray = (text.toList.flatMap String.utf8EncodeChar).toByteArray := by
    conv => lhs; rw [← String.ofList_toList (s := text)]
    rfl
  unfold encode encodeChars
  rw [String.toUTF8_eq_toByteArray, bytes, ByteArray.toList, toList_loop_eq]
  simp

private theorem toNat_ofNat {n : Nat} (small : n < 256) : (UInt8.ofNat n).toNat = n :=
  UInt8.toNat_ofNat_of_lt' small

theorem isContinuation_iff (byte : UInt8) :
    isContinuation byte = true ↔ 0x80 ≤ byte.toNat ∧ byte.toNat ≤ 0xbf := by
  simp [isContinuation, UInt8.le_iff_toNat_le]

theorem followsHead_iff (first second : UInt8) :
    followsHead first second = true ↔
      (0x80 ≤ second.toNat ∧ second.toNat ≤ 0xbf) ∧
        (first.toNat = 0xe0 → 0xa0 ≤ second.toNat) ∧ (first.toNat = 0xed → second.toNat < 0xa0) ∧
        (first.toNat = 0xf0 → 0x90 ≤ second.toNat) ∧ (first.toNat = 0xf4 → second.toNat < 0x90) := by
  simp only [followsHead, Bool.and_eq_true, isContinuation_iff, Bool.not_eq_true', Bool.and_eq_false_imp,
    decide_eq_true_eq, decide_eq_false_iff_not, ← UInt8.toNat_inj, UInt8.le_iff_toNat_le,
    UInt8.lt_iff_toNat_lt, UInt8.toNat_ofNat, Nat.reducePow, Nat.reduceMod, Nat.not_lt, Nat.not_le,
    and_assoc]

theorem step_one {first : UInt8} (rest : List UInt8) (low : first.toNat < 0x80) :
    step first rest = .char (charOf first.toNat) 1 := by
  simp only [step, UInt8.lt_iff_toNat_lt, UInt8.toNat_ofNat, if_pos low]

theorem step_two (rest : List UInt8) (lower : 0xc2 ≤ first.toNat) (upper : first.toNat < 0xe0)
    (continued : isContinuation second = true) :
    step first (second :: rest) = .char (charOf (first.toNat % 32 * 64 + low6 second)) 2 := by
  simp only [step, UInt8.lt_iff_toNat_lt, UInt8.toNat_ofNat]
  rw [if_neg (by omega), if_neg (by omega), if_pos upper, if_pos continued]

theorem step_three (rest : List UInt8) (lower : 0xe0 ≤ first.toNat) (upper : first.toNat < 0xf0)
    (follows : followsHead first second = true) (continued : isContinuation third = true) :
    step first (second :: third :: rest) =
      .char (charOf ((first.toNat % 16 * 64 + low6 second) * 64 + low6 third)) 3 := by
  simp only [step, UInt8.lt_iff_toNat_lt, UInt8.toNat_ofNat]
  rw [if_neg (by omega), if_neg (by omega), if_neg (by omega), if_pos upper]
  simp [follows, continued]

theorem step_four {fourth : UInt8} (rest : List UInt8) (lower : 0xf0 ≤ first.toNat)
    (upper : first.toNat < 0xf5) (follows : followsHead first second = true)
    (continued : isContinuation third = true) (ended : isContinuation fourth = true) :
    step first (second :: third :: fourth :: rest) =
      .char (charOf (((first.toNat % 8 * 64 + low6 second) * 64 + low6 third) * 64 + low6 fourth)) 4 := by
  simp only [step, UInt8.lt_iff_toNat_lt, UInt8.toNat_ofNat]
  rw [if_neg (by omega), if_neg (by omega), if_neg (by omega), if_neg (by omega), if_pos upper]
  simp [follows, continued, ended]

theorem charOf_toNat (c : Char) : charOf c.val.toNat = c := Char.ofNat_toNat c

theorem step_encodeChar (c : Char) :
    ∃ first others, String.utf8EncodeChar c = first :: others ∧
      ∀ rest, step first (others ++ rest) = .char c (others.length + 1) := by
  have valid : c.val.toNat < 0xd800 ∨ 0xdfff < c.val.toNat ∧ c.val.toNat < 0x110000 := c.valid
  generalize size : c.val.toNat = v at valid
  have decoded : charOf v = c := size ▸ charOf_toNat c
  unfold String.utf8EncodeChar
  simp only [size]
  split
  · refine ⟨_, _, rfl, fun rest => ?_⟩
    have head : (UInt8.ofNat v).toNat = v := toNat_ofNat (by omega)
    rw [step_one _ (by omega), head, decoded]
    rfl
  split
  · refine ⟨_, _, rfl, fun rest => ?_⟩
    have head := @toNat_ofNat (v / 64 % 32 + 192) (by omega)
    have last := @toNat_ofNat (v % 64 + 128) (by omega)
    have code : (v / 64 % 32 + 192) % 32 * 64 + (v % 64 + 128) % 64 = v := by omega
    rw [cons_append, step_two _ (by omega) (by omega) ((isContinuation_iff _).2 (by omega)),
      low6, head, last, code, decoded]
    rfl
  split
  · refine ⟨_, _, rfl, fun rest => ?_⟩
    have head := @toNat_ofNat (v / 4096 % 16 + 224) (by omega)
    have middle := @toNat_ofNat (v / 64 % 64 + 128) (by omega)
    have last := @toNat_ofNat (v % 64 + 128) (by omega)
    have code : ((v / 4096 % 16 + 224) % 16 * 64 + (v / 64 % 64 + 128) % 64) * 64 + (v % 64 + 128) % 64 = v := by
      omega
    rw [cons_append, cons_append, step_three _ (by omega) (by omega)
      ((followsHead_iff _ _).2 (by omega)) ((isContinuation_iff _).2 (by omega)),
      low6, low6, head, middle, last, code, decoded]
    rfl
  · refine ⟨_, _, rfl, fun rest => ?_⟩
    have head := @toNat_ofNat (v / 262144 % 8 + 240) (by omega)
    have second := @toNat_ofNat (v / 4096 % 64 + 128) (by omega)
    have third := @toNat_ofNat (v / 64 % 64 + 128) (by omega)
    have last := @toNat_ofNat (v % 64 + 128) (by omega)
    have code : (((v / 262144 % 8 + 240) % 8 * 64 + (v / 4096 % 64 + 128) % 64) * 64
        + (v / 64 % 64 + 128) % 64) * 64 + (v % 64 + 128) % 64 = v := by
      omega
    rw [cons_append, cons_append, cons_append, step_four _ (by omega) (by omega)
      ((followsHead_iff _ _).2 (by omega)) ((isContinuation_iff _).2 (by omega))
      ((isContinuation_iff _).2 (by omega)),
      low6, low6, low6, head, second, third, last, code, decoded]
    rfl

theorem decodeFrom_skip (position : Nat) (known bytes : List UInt8) :
    decodeFrom position known.length (known ++ bytes) = decodeFrom (position + known.length) 0 bytes := by
  induction known generalizing position with
  | nil => rfl
  | cons byte rest ih =>
    have shifted : position + (byte :: rest).length = position + 1 + rest.length := by
      rw [length_cons]
      omega
    rw [shifted, ← ih]
    rfl

theorem decodeFrom_encodeChars (position : Nat) (chars : List Char) :
    decodeFrom position 0 (encodeChars chars) = .ok chars := by
  induction chars generalizing position with
  | nil => rfl
  | cons c rest ih =>
    obtain ⟨first, others, bytes, read⟩ := step_encodeChar c
    have tail := (decodeFrom_skip (position + 1) others (encodeChars rest)).trans (ih _)
    rw [encodeChars_cons, bytes, cons_append, decodeFrom, read]
    simp only [Nat.add_sub_cancel, tail]

theorem decode_encodeChars (chars : List Char) : decode (encodeChars chars) = .ok (String.ofList chars) := by
  simp only [decode, decodeFrom_encodeChars]

theorem decodeLossyFrom_skip (known bytes : List UInt8) :
    decodeLossyFrom known.length (known ++ bytes) = decodeLossyFrom 0 bytes := by
  induction known with
  | nil => rfl
  | cons byte rest ih => exact ih

/-- Nothing is left out of the bytes of characters. -/
theorem decodeLossy_encodeChars (chars : List Char) : decodeLossy (encodeChars chars) = String.ofList chars := by
  have whole : decodeLossyFrom 0 (encodeChars chars) = chars := by
    induction chars with
    | nil => rfl
    | cons c rest ih =>
      obtain ⟨first, others, bytes, read⟩ := step_encodeChar c
      rw [encodeChars_cons, bytes, cons_append, decodeLossyFrom, read]
      simp only [Nat.add_sub_cancel, decodeLossyFrom_skip, ih]
  rw [decodeLossy, whole]

theorem charOf_val {code : Nat} (valid : code < 0xd800 ∨ 0xdfff < code ∧ code < 0x110000) :
    (charOf code).val.toNat = code := by
  have isValid : code.isValidChar := valid
  rw [charOf, Char.ofNat, dif_pos isValid]
  rfl

/-- How a character is read: from one to four bytes, by the first of them. -/
theorem step_char_cases (read : step first rest = .char c length) :
    (first.toNat < 0x80 ∧ c = charOf first.toNat ∧ length = 1) ∨
      (∃ second more, rest = second :: more ∧ 0xc2 ≤ first.toNat ∧ first.toNat < 0xe0 ∧ isContinuation second = true ∧
        c = charOf (first.toNat % 32 * 64 + low6 second) ∧ length = 2) ∨
      (∃ second third more, rest = second :: third :: more ∧ 0xe0 ≤ first.toNat ∧ first.toNat < 0xf0 ∧
        followsHead first second = true ∧ isContinuation third = true ∧
        c = charOf ((first.toNat % 16 * 64 + low6 second) * 64 + low6 third) ∧ length = 3) ∨
      (∃ second third fourth more, rest = second :: third :: fourth :: more ∧ 0xf0 ≤ first.toNat ∧
        first.toNat < 0xf5 ∧ followsHead first second = true ∧ isContinuation third = true ∧
        isContinuation fourth = true ∧
        c = charOf (((first.toNat % 8 * 64 + low6 second) * 64 + low6 third) * 64 + low6 fourth) ∧ length = 4) := by
  unfold step at read
  simp only [UInt8.lt_iff_toNat_lt, UInt8.toNat_ofNat] at read
  split at read
  · next low =>
      cases read
      exact .inl ⟨low, rfl, rfl⟩
  split at read
  · cases read
  split at read
  · next lower upper =>
      split at read
      · cases read
      · next second more =>
          split at read
          · next continued =>
              cases read
              exact .inr (.inl ⟨second, more, rfl, by omega, upper, continued, rfl, rfl⟩)
          · cases read
  split at read
  · next lower upper =>
      split at read
      · cases read
      · split at read <;> cases read
      · next second third more =>
          split at read
          · cases read
          · next follows =>
              split at read
              · cases read
              · next continued =>
                  cases read
                  simp only [Bool.not_eq_true', Bool.not_eq_false] at follows continued
                  exact .inr (.inr (.inl ⟨second, third, more, rfl, by omega, upper, follows, continued, rfl, rfl⟩))
  split at read
  · next lower upper =>
      split at read
      · cases read
      · split at read <;> cases read
      · split at read
        · cases read
        · split at read <;> cases read
      · next second third fourth more =>
          split at read
          · cases read
          · next follows =>
              split at read
              · cases read
              · next continued =>
                  split at read
                  · cases read
                  · next ended =>
                      cases read
                      simp only [Bool.not_eq_true', Bool.not_eq_false] at follows continued ended
                      exact .inr (.inr (.inr
                        ⟨second, third, fourth, more, rfl, by omega, upper, follows, continued, ended, rfl, rfl⟩))
  · cases read

private theorem byte_eq {byte : UInt8} {n : Nat} (same : n = byte.toNat) : UInt8.ofNat n = byte := by
  rw [same, UInt8.ofNat_toNat]

theorem encodeChar_of_step (read : step first rest = .char c length) :
    String.utf8EncodeChar c = first :: rest.take (length - 1) := by
  rcases step_char_cases read with ⟨low, rfl, rfl⟩ | ⟨second, more, rfl, lower, upper, continued, rfl, rfl⟩ |
    ⟨second, third, more, rfl, lower, upper, follows, continued, rfl, rfl⟩ |
    ⟨second, third, fourth, more, rfl, lower, upper, follows, continued, ended, rfl, rfl⟩
  · have value := charOf_val (show first.toNat < 0xd800 ∨ _ by omega)
    simp only [String.utf8EncodeChar, value, if_pos (show first.toNat ≤ 127 by omega), byte_eq rfl]
    rfl
  · rw [isContinuation_iff] at continued
    unfold low6
    generalize code : first.toNat % 32 * 64 + second.toNat % 64 = v
    have value := charOf_val (show v < 0xd800 ∨ _ by omega)
    simp only [String.utf8EncodeChar, value, if_neg (show ¬ v ≤ 127 by omega), if_pos (show v ≤ 2047 by omega)]
    rw [byte_eq (show v / 64 % 32 + 192 = first.toNat by omega), byte_eq (show v % 64 + 128 = second.toNat by omega)]
    rfl
  · rw [isContinuation_iff] at continued
    obtain ⟨secondRange, overlong, surrogate, _⟩ := (followsHead_iff first second).1 follows
    unfold low6
    generalize code : (first.toNat % 16 * 64 + second.toNat % 64) * 64 + third.toNat % 64 = v
    have value := charOf_val (show v < 0xd800 ∨ 0xdfff < v ∧ v < 0x110000 by omega)
    simp only [String.utf8EncodeChar, value, if_neg (show ¬ v ≤ 127 by omega), if_neg (show ¬ v ≤ 2047 by omega),
      if_pos (show v ≤ 65535 by omega)]
    rw [byte_eq (show v / 4096 % 16 + 224 = first.toNat by omega),
      byte_eq (show v / 64 % 64 + 128 = second.toNat by omega), byte_eq (show v % 64 + 128 = third.toNat by omega)]
    rfl
  · rw [isContinuation_iff] at continued ended
    obtain ⟨secondRange, _, _, overlong, large⟩ := (followsHead_iff first second).1 follows
    unfold low6
    generalize code :
      ((first.toNat % 8 * 64 + second.toNat % 64) * 64 + third.toNat % 64) * 64 + fourth.toNat % 64 = v
    have value := charOf_val (show v < 0xd800 ∨ 0xdfff < v ∧ v < 0x110000 by omega)
    simp only [String.utf8EncodeChar, value, if_neg (show ¬ v ≤ 127 by omega), if_neg (show ¬ v ≤ 2047 by omega),
      if_neg (show ¬ v ≤ 65535 by omega)]
    rw [byte_eq (show v / 262144 % 8 + 240 = first.toNat by omega),
      byte_eq (show v / 4096 % 64 + 128 = second.toNat by omega),
      byte_eq (show v / 64 % 64 + 128 = third.toNat by omega), byte_eq (show v % 64 + 128 = fourth.toNat by omega)]
    rfl

theorem encodeChars_of_decodeFrom (decoded : decodeFrom position skip bytes = .ok chars) :
    encodeChars chars = bytes.drop skip := by
  induction bytes generalizing position skip chars with
  | nil =>
    cases skip <;> cases decoded <;> rfl
  | cons first rest ih =>
    cases skip with
    | succ skip => exact ih decoded
    | zero =>
      rw [decodeFrom] at decoded
      split at decoded
      · next c length read =>
          split at decoded
          · next others more =>
              cases decoded
              rw [encodeChars_cons, encodeChar_of_step read, ih more, cons_append, take_append_drop]
              rfl
          · cases decoded
      · cases decoded

theorem decode_ok_iff {text : String} : decode bytes = .ok text ↔ bytes = encode text := by
  rw [encode_eq]
  constructor
  · intro decoded
    unfold decode at decoded
    split at decoded
    · next chars found =>
        cases decoded
        rw [String.toList_ofList, encodeChars_of_decodeFrom found]
        rfl
    · cases decoded
  · rintro rfl
    rw [decode_encodeChars, String.ofList_toList]

theorem encode_inj {left right : String} (same : encode left = encode right) : left = right :=
  Except.ok.inj ((decode_ok_iff.2 rfl).symm.trans (decode_ok_iff.2 same))

/-- An offset that lies between two characters, before the first or after the last one. -/
def Boundary (chars : List Char) (offset : Nat) : Prop :=
  ∃ before after, chars = before ++ after ∧ (encodeChars before).length = offset

theorem Boundary.le_length (boundary : Boundary chars offset) : offset ≤ (encodeChars chars).length := by
  obtain ⟨before, after, rfl, rfl⟩ := boundary
  simp

theorem Boundary.drop (boundary : Boundary chars offset) :
    ∃ after, (encodeChars chars).drop offset = encodeChars after := by
  obtain ⟨before, after, rfl, rfl⟩ := boundary
  exact ⟨after, by simp⟩

theorem encodeChars_length_pos (some : chars ≠ []) : 0 < (encodeChars chars).length := by
  cases chars with
  | nil => exact absurd rfl some
  | cons c rest =>
    obtain ⟨first, others, bytes, _⟩ := step_encodeChar c
    simp [bytes]

theorem Boundary.between {chars : List Char} {start stop : Nat} (first : Boundary chars start)
    (last : Boundary chars stop) (ordered : start ≤ stop) :
    ∃ inner, ((encodeChars chars).drop start).take (stop - start) = encodeChars inner := by
  obtain ⟨before, after, rfl, rfl⟩ := first
  obtain ⟨longer, rest, split, rfl⟩ := last
  rcases append_eq_append_iff.1 split with ⟨inner, rfl, rfl⟩ | ⟨inner, rfl, rfl⟩
  · exact ⟨inner, by simp⟩
  · -- The later boundary cannot cut off less, so nothing lies between the two.
    have empty : inner = [] := by
      by_cases some : inner = []
      · exact some
      · have positive := encodeChars_length_pos some
        simp only [encodeChars_append, length_append] at ordered
        omega
    exact ⟨[], by simp⟩

/-- A line feed is a character of its own, so the offset after it is a boundary too. -/
theorem Boundary.after_newline (boundary : Boundary chars offset)
    (newline : (encodeChars chars)[offset]? = some 10) : Boundary chars (offset + 1) := by
  obtain ⟨before, after, rfl, rfl⟩ := boundary
  cases after with
  | nil => simp at newline
  | cons c rest =>
    obtain ⟨first, others, bytes, read⟩ := step_encodeChar c
    have head : first = 10 := by simpa [bytes] using newline
    have alone : others = [] := by
      have one := @step_one first (others ++ []) (by rw [head]; decide)
      have size := one.symm.trans (read [])
      simp only [Step.char.injEq] at size
      exact eq_nil_of_length_eq_zero (by omega)
    exact ⟨before ++ [c], rest, by simp, by simp [bytes, alone]⟩

theorem continues_of_followsHead (follows : followsHead first second = true) :
    isContinuation second = true := by
  rw [isContinuation_iff]
  exact ((followsHead_iff first second).1 follows).1

theorem step_continues (read : step first rest = .char c length) :
    ∀ byte ∈ rest.take (length - 1), isContinuation byte = true := by
  rcases step_char_cases read with ⟨_, _, rfl⟩ | ⟨second, more, rfl, _, _, continued, _, rfl⟩ |
    ⟨second, third, more, rfl, _, _, follows, continued, _, rfl⟩ |
    ⟨second, third, fourth, more, rfl, _, _, follows, continued, ended, _, rfl⟩
  · simp
  · simpa using continued
  · simp [continues_of_followsHead follows, continued]
  · simp [continues_of_followsHead follows, continued, ended]

theorem decodeFrom_append
    (decoded : decodeFrom position 0 (encodeChars chars ++ after) = .ok found) : chars <+: found := by
  induction chars generalizing position found with
  | nil => exact nil_prefix
  | cons c rest ih =>
    obtain ⟨first, others, bytes, read⟩ := step_encodeChar c
    have tail := decodeFrom_skip (position + 1) others (encodeChars rest ++ after)
    rw [encodeChars_cons, bytes, cons_append, cons_append, append_assoc, decodeFrom, read] at decoded
    simp only [Nat.add_sub_cancel, tail] at decoded
    cases more : decodeFrom (position + 1 + others.length) 0 (encodeChars rest ++ after) with
    | error fault => simp [more] at decoded
    | ok characters =>
      simp only [more, Except.ok.injEq] at decoded
      subst decoded
      exact cons_prefix_cons.2 ⟨rfl, ih more⟩

/-- A byte below 128 is a character of its own, so a text that starts with one is found again. -/
theorem decodeFrom_infix {before : List UInt8} (ascii : c.val.toNat < 128)
    (continued : ∀ byte ∈ (before ++ encodeChars (c :: chars) ++ after).take skip, isContinuation byte = true)
    (decoded : decodeFrom position skip (before ++ encodeChars (c :: chars) ++ after) = .ok found) :
    c :: chars <:+: found := by
  induction before generalizing position skip found with
  | nil =>
    cases skip with
    | zero => exact (decodeFrom_append decoded).isInfix
    | succ skip =>
      have alone : String.utf8EncodeChar c = [UInt8.ofNat c.val.toNat] := by
        simp only [String.utf8EncodeChar, if_pos (show c.val.toNat ≤ 127 by omega)]
      have low := continued (UInt8.ofNat c.val.toNat) (by simp [alone])
      rw [isContinuation_iff, UInt8.toNat_ofNat_of_lt' (show c.val.toNat < 2 ^ 8 by omega)] at low
      omega
  | cons byte rest ih =>
    cases skip with
    | succ skip =>
      exact ih (fun other member => continued other (mem_cons_of_mem _ member)) decoded
    | zero =>
      simp only [cons_append, decodeFrom] at decoded
      split at decoded
      · next character length read =>
          split at decoded
          · next characters more =>
              cases decoded
              exact (ih (step_continues read) more).trans (suffix_cons _ _).isInfix
          · cases decoded
      · cases decoded

theorem infix_of_decode {text part : String} (starts : part.toList = c :: chars) (ascii : c.val.toNat < 128)
    (within : encode part <:+: bytes) (decoded : decode bytes = .ok text) : part.toList <:+: text.toList := by
  obtain ⟨before, after, rfl⟩ := within
  rw [encode_eq, starts] at decoded
  unfold decode at decoded
  split at decoded
  · next characters found =>
      cases decoded
      rw [starts, String.toList_ofList]
      exact decodeFrom_infix ascii (by simp) found
  · cases decoded

end Refit.Text.Utf8
