import Mathlib.Tactic.SplitIfs
import ModuleStubs.Text.Utf8

/-! Decoding undoes encoding, strictly and leniently. An encoded character at the front
is read as that character whatever bytes follow it, and no other bytes are read as it. -/

namespace ModuleStubs.Text.Utf8

theorem val_bounds (c : Char) :
    c.val.toNat < 0xD800 ∨ 0xDFFF < c.val.toNat ∧ c.val.toNat < 0x110000 := c.valid

theorem toNat_byte {n : Nat} (h : n < 256) : (UInt8.ofNat n).toNat = n := by
  rw [UInt8.toNat_ofNat']
  exact Nat.mod_eq_of_lt h

theorem toNat_tail (n : Nat) : (UInt8.ofNat (n % 64 + 128)).toNat = n % 64 + 128 :=
  toNat_byte (by omega)

@[simp] theorem isTail_tail (n : Nat) : isTail (UInt8.ofNat (n % 64 + 128)) = true := by
  simp only [isTail, toNat_tail, Bool.and_eq_true, decide_eq_true_eq]
  omega

@[simp] theorem tailBits_tail (n : Nat) : tailBits (UInt8.ofNat (n % 64 + 128)) = n % 64 := by
  rw [tailBits, toNat_tail]
  omega

theorem secondFits_three (c : Char) (low : 2047 < c.val.toNat) (high : c.val.toNat ≤ 65535) :
    secondFits (c.val.toNat / 4096 % 16 + 224)
      (UInt8.ofNat (c.val.toNat / 64 % 64 + 128)) = true := by
  have bounds := val_bounds c
  simp only [secondFits, isTail, toNat_tail]
  split_ifs <;> simp only [Bool.and_eq_true, decide_eq_true_eq] <;> omega

theorem secondFits_four (c : Char) (low : 65535 < c.val.toNat) :
    secondFits (c.val.toNat / 262144 % 8 + 240)
      (UInt8.ofNat (c.val.toNat / 4096 % 64 + 128)) = true := by
  have bounds := val_bounds c
  simp only [secondFits, isTail, toNat_tail]
  split_ifs <;> simp only [Bool.and_eq_true, decide_eq_true_eq] <;> omega

theorem front_two (c : Char) (rest : List UInt8) (low : 127 < c.val.toNat)
    (high : c.val.toNat ≤ 2047) :
    front (UInt8.ofNat (c.val.toNat / 64 % 32 + 192))
      (UInt8.ofNat (c.val.toNat % 64 + 128) :: rest) = .char c 1 := by
  have lead := toNat_byte (n := c.val.toNat / 64 % 32 + 192) (by omega)
  have value : (c.val.toNat / 64 % 32 + 192) % 32 * 64 + c.val.toNat % 64 = c.val.toNat := by
    omega
  simp only [front, lead, isTail_tail, tailBits_tail, value, if_true]
  rw [if_neg (by omega), if_neg (by omega), if_pos (by omega)]
  exact congrArg (Front.char · 1) (Char.ofNat_toNat c)

theorem front_three (c : Char) (rest : List UInt8) (low : 2047 < c.val.toNat)
    (high : c.val.toNat ≤ 65535) :
    front (UInt8.ofNat (c.val.toNat / 4096 % 16 + 224))
      (UInt8.ofNat (c.val.toNat / 64 % 64 + 128) :: UInt8.ofNat (c.val.toNat % 64 + 128) :: rest) =
      .char c 2 := by
  have lead := toNat_byte (n := c.val.toNat / 4096 % 16 + 224) (by omega)
  have value : (c.val.toNat / 4096 % 16 + 224) % 16 * 4096 + c.val.toNat / 64 % 64 * 64 +
      c.val.toNat % 64 = c.val.toNat := by omega
  simp only [front, lead, secondFits_three c low high, isTail_tail, tailBits_tail, value,
    Bool.not_true, Bool.false_eq_true, if_false]
  rw [if_neg (by omega), if_neg (by omega), if_neg (by omega), if_pos (by omega)]
  exact congrArg (Front.char · 2) (Char.ofNat_toNat c)

theorem front_four (c : Char) (rest : List UInt8) (low : 65535 < c.val.toNat) :
    front (UInt8.ofNat (c.val.toNat / 262144 % 8 + 240))
      (UInt8.ofNat (c.val.toNat / 4096 % 64 + 128) ::
        UInt8.ofNat (c.val.toNat / 64 % 64 + 128) ::
        UInt8.ofNat (c.val.toNat % 64 + 128) :: rest) = .char c 3 := by
  have bounds := val_bounds c
  have lead := toNat_byte (n := c.val.toNat / 262144 % 8 + 240) (by omega)
  have value : (c.val.toNat / 262144 % 8 + 240) % 8 * 262144 + c.val.toNat / 4096 % 64 * 4096 +
      c.val.toNat / 64 % 64 * 64 + c.val.toNat % 64 = c.val.toNat := by omega
  simp only [front, lead, secondFits_four c low, isTail_tail, tailBits_tail, value,
    Bool.not_true, Bool.false_eq_true, if_false]
  rw [if_neg (by omega), if_neg (by omega), if_neg (by omega), if_neg (by omega),
    if_pos (by omega)]
  exact congrArg (Front.char · 3) (Char.ofNat_toNat c)

/-- The front of an encoded character is that character, with all its bytes. -/
theorem front_encodeChar (c : Char) :
    ∃ b more, String.utf8EncodeChar c = b :: more ∧
      ∀ rest, front b (more ++ rest) = .char c more.length := by
  simp only [String.utf8EncodeChar]
  split_ifs with one two three
  · refine ⟨_, _, rfl, fun rest => ?_⟩
    have lead : (UInt8.ofNat c.val.toNat).toNat = c.val.toNat := toNat_byte (by omega)
    simp only [front, lead]
    rw [if_pos (by omega)]
    exact congrArg (Front.char · 0) (Char.ofNat_toNat c)
  · exact ⟨_, _, rfl, fun rest => front_two c rest (by omega) two⟩
  · exact ⟨_, _, rfl, fun rest => front_three c rest (by omega) three⟩
  · exact ⟨_, _, rfl, fun rest => front_four c rest (by omega)⟩

theorem val_ofNat {n : Nat} (valid : n < 0xD800 ∨ 0xDFFF < n ∧ n < 0x110000) :
    (Char.ofNat n).val.toNat = n := by
  rw [Char.ofNat, dif_pos valid]
  rfl

theorem ofNat_eq {b : UInt8} {n : Nat} (same : n = b.toNat) : UInt8.ofNat n = b := by
  rw [same, UInt8.ofNat_toNat]

theorem isTail_iff {b : UInt8} : isTail b = true ↔ 128 ≤ b.toNat ∧ b.toNat < 192 := by
  simp [isTail]

section

variable {b c d e : UInt8}

theorem bounds_of_secondFits {lead : Nat} (fits : secondFits lead c = true) :
    128 ≤ c.toNat ∧ c.toNat < 192 ∧ (lead = 224 → 160 ≤ c.toNat) ∧ (lead = 237 → c.toNat < 160) ∧
      (lead = 240 → 144 ≤ c.toNat) ∧ (lead = 244 → c.toNat < 144) := by
  unfold secondFits isTail at fits
  split_ifs at fits <;> simp only [Bool.and_eq_true, decide_eq_true_eq] at fits <;> omega

theorem code_one (lead : b.toNat < 128) : String.utf8EncodeChar (Char.ofNat b.toNat) = [b] := by
  rw [String.utf8EncodeChar, val_ofNat (by omega), if_pos (by omega), ofNat_eq rfl]

theorem code_two (low : 194 ≤ b.toNat) (high : b.toNat < 224) (tail : isTail c = true) :
    String.utf8EncodeChar (Char.ofNat (b.toNat % 32 * 64 + tailBits c)) = [b, c] := by
  have bounds := isTail_iff.mp tail
  unfold tailBits
  rw [String.utf8EncodeChar, val_ofNat (by omega), if_neg (by omega), if_pos (by omega),
    ofNat_eq (b := b) (by omega), ofNat_eq (b := c) (by omega)]

theorem code_three (low : 224 ≤ b.toNat) (high : b.toNat < 240)
    (second : secondFits b.toNat c = true) (third : isTail d = true) :
    String.utf8EncodeChar (Char.ofNat (b.toNat % 16 * 4096 + tailBits c * 64 + tailBits d)) =
      [b, c, d] := by
  have bounds := bounds_of_secondFits second
  have last := isTail_iff.mp third
  unfold tailBits
  rw [String.utf8EncodeChar, val_ofNat (by omega), if_neg (by omega), if_neg (by omega),
    if_pos (by omega), ofNat_eq (b := b) (by omega), ofNat_eq (b := c) (by omega),
    ofNat_eq (b := d) (by omega)]

theorem code_four (low : 240 ≤ b.toNat) (high : b.toNat < 245)
    (second : secondFits b.toNat c = true) (third : isTail d = true) (fourth : isTail e = true) :
    String.utf8EncodeChar (Char.ofNat
      (b.toNat % 8 * 262144 + tailBits c * 4096 + tailBits d * 64 + tailBits e)) =
        [b, c, d, e] := by
  have bounds := bounds_of_secondFits second
  have middle := isTail_iff.mp third
  have last := isTail_iff.mp fourth
  unfold tailBits
  rw [String.utf8EncodeChar, val_ofNat (by omega), if_neg (by omega), if_neg (by omega),
    if_neg (by omega), ofNat_eq (b := b) (by omega), ofNat_eq (b := c) (by omega),
    ofNat_eq (b := d) (by omega), ofNat_eq (b := e) (by omega)]

end

/-- A character is read off its own code only. -/
theorem code_of_front {b : UInt8} {rest : List UInt8} {c : Char} {more : Nat}
    (h : front b rest = .char c more) : String.utf8EncodeChar c ++ rest.drop more = b :: rest := by
  revert h
  -- Most cases give no character; one for each length remains.
  fun_cases front b rest
  all_goals intro h
  all_goals try contradiction
  all_goals obtain ⟨rfl, rfl⟩ := Front.char.inj h
  case case1 lead => rw [code_one lead]; rfl
  case case4 low high _ _ tail => rw [code_two (by omega) high tail]; rfl
  case case11 low high _ _ _ second third =>
    rw [code_three (by omega) high (by simpa using second) (by simpa using third)]
    rfl
  case case21 low high _ _ _ _ second third fourth =>
    rw [code_four (by omega) high (by simpa using second) (by simpa using third)
      (by simpa using fourth)]
    rfl

theorem decodeLenient_encode_append (cs : List Char) (rest : List UInt8) :
    decodeLenient (encode cs ++ rest) = cs ++ decodeLenient rest := by
  induction cs with
  | nil => rfl
  | cons c cs ih =>
    obtain ⟨b, more, encoded, front_eq⟩ := front_encodeChar c
    rw [encode_cons, encoded, List.append_assoc, List.cons_append, decodeLenient, front_eq]
    simp only [List.drop_left, ih, List.cons_append]

@[simp] theorem decodeLenient_encode (cs : List Char) : decodeLenient (encode cs) = cs := by
  simpa [decodeLenient] using decodeLenient_encode_append cs []

theorem decodeAt_encode (position : Nat) (cs : List Char) :
    decodeAt position (encode cs) = .ok cs := by
  induction cs generalizing position with
  | nil => simp [decodeAt]
  | cons c cs ih =>
    obtain ⟨b, more, encoded, front_eq⟩ := front_encodeChar c
    rw [encode_cons, encoded, List.cons_append, decodeAt, front_eq]
    simp only [List.drop_left, ih]
    rfl

@[simp] theorem decode_encode (cs : List Char) : decode (encode cs) = .ok cs :=
  decodeAt_encode 0 cs

theorem encode_of_decodeAt {position : Nat} {bytes : List UInt8} {cs : List Char}
    (read : decodeAt position bytes = .ok cs) : encode cs = bytes := by
  fun_induction decodeAt position bytes generalizing cs with
  | case1 =>
    cases read
    rfl
  | case2 position b rest c more given ih =>
    cases later : decodeAt (position + 1 + more) (rest.drop more) with
    | error why =>
      rw [later] at read
      cases read
    | ok ds =>
      rw [later] at read
      cases read
      rw [encode_cons, ih later, code_of_front given]
  | case3 => cases read

theorem decode_eq_ok_iff {bytes : List UInt8} {cs : List Char} :
    decode bytes = .ok cs ↔ bytes = encode cs := by
  constructor
  · exact fun read => (encode_of_decodeAt read).symm
  · rintro rfl
    exact decode_encode cs

theorem encode_injective {a b : List Char} (h : encode a = encode b) : a = b := by
  have decoded := congrArg decodeLenient h
  rwa [decodeLenient_encode, decodeLenient_encode] at decoded

end ModuleStubs.Text.Utf8
