import Mathlib.Tactic.SplitIfs
import ModuleStubs.Json.Reader
import ModuleStubs.Json.Writer
import ModuleStubs.Proofs.Results
import ModuleStubs.Proofs.Text.Joined

/-! Strings in JSON text. Reading takes back every code point as it was written: as itself, as
a short escape, or as one or two units of four digits. Only two halves that make a pair are not
taken back, and reading never gives such halves. -/

namespace ModuleStubs.Json

open Text

theorem unit?_fixed {n : Nat} (small : n < 0x10000) (rest : List Char) :
    unit? (Hex.fixed .lower 4 n ++ rest) = some n := by
  have front : (Hex.fixed .lower 4 n ++ rest).take 4 = Hex.fixed .lower 4 n :=
    List.take_left' (Hex.length_fixed .lower 4 n)
  have digits : (Hex.fixed .lower 4 n).all Hex.isDigit = true :=
    List.all_eq_true.mpr fun c => Hex.isDigit_of_mem_fixed
  simp only [unit?, front, Hex.length_fixed, digits, and_self, if_true,
    @Hex.number_fixed .lower 4 n small]

theorem drop_fixed (n : Nat) (rest : List Char) : (Hex.fixed .lower 4 n ++ rest).drop 4 = rest :=
  List.drop_left' (Hex.length_fixed .lower 4 n)

theorem not_surrogate (c : Char) : isHighUnit c.toNat = false ∧ isLowUnit c.toNat = false := by
  have valid := c.valid
  have same : c.toNat = c.val.toNat := rfl
  simp only [isHighUnit, isLowUnit, Bool.and_eq_false_iff, decide_eq_false_iff_not]
  rcases valid with low | high
  · omega
  · omega

theorem ofUnit_toNat (c : Char) : ofUnit c.toNat = .char c := by
  obtain ⟨high, low⟩ := not_surrogate c
  rw [ofUnit, high, low, Bool.or_false, if_neg Bool.false_ne_true, Char.ofNat_toNat]

theorem unicodeEscape?_unit {c : Char} (small : c.toNat < 0x10000) (rest : List Char) :
    unicodeEscape? (Hex.fixed .lower 4 c.toNat ++ rest) = some (.char c, 4) := by
  rw [unicodeEscape?, unit?_fixed small, Option.bind_eq_bind, Option.bind_some,
    (not_surrogate c).1, if_neg Bool.false_ne_true, ofUnit_toNat]

theorem isHighUnit_half (n : Fin 0x800) :
    isHighUnit (0xD800 + n.val) = (CodePoint.half n).isHigh := by
  simp only [isHighUnit, CodePoint.isHigh]
  grind

theorem isLowUnit_half (n : Fin 0x800) : isLowUnit (0xD800 + n.val) = (CodePoint.half n).isLow := by
  simp only [isLowUnit, CodePoint.isLow]
  grind

theorem ofUnit_half (n : Fin 0x800) : ofUnit (0xD800 + n.val) = .half n := by
  have either : (isHighUnit (0xD800 + n.val) || isLowUnit (0xD800 + n.val)) = true := by
    rw [isHighUnit_half, isLowUnit_half]
    simp only [CodePoint.isHigh, CodePoint.isLow]
    grind
  rw [ofUnit, if_pos either, Nat.add_sub_cancel_left]
  exact congrArg CodePoint.half (Fin.ext (Nat.mod_eq_of_lt n.isLt))

/-- A half is taken back where no second half comes after a first one. -/
theorem unicodeEscape?_half {n : Fin 0x800} {rest : List Char}
    (alone : (CodePoint.half n).isHigh = true → lowUnit? rest = none) :
    unicodeEscape? (Hex.fixed .lower 4 (0xD800 + n.val) ++ rest) = some (.half n, 4) := by
  have small : 0xD800 + n.val < 0x10000 := by omega
  rw [unicodeEscape?, unit?_fixed small]
  simp only [Option.bind_eq_bind, Option.bind_some, isHighUnit_half, drop_fixed, ofUnit_half]
  split_ifs with high
  · rw [alone high]
  · rfl

theorem unicodeEscape?_of_units {cs : List Char} {high low : Nat} (first : unit? cs = some high)
    (upper : isHighUnit high = true) (second : lowUnit? (cs.drop 4) = some low) :
    unicodeEscape? cs =
      some (.char (Char.ofNat (0x10000 + (high - 0xD800) * 0x400 + (low - 0xDC00))), 10) := by
  rw [unicodeEscape?, first]
  simp only [Option.bind_eq_bind, Option.bind_some, upper, if_true, second]

theorem lowUnit?_fixed {n : Nat} (lower : isLowUnit n = true) (rest : List Char) :
    lowUnit? ('\\' :: 'u' :: (Hex.fixed .lower 4 n ++ rest)) = some n := by
  have small : n < 0x10000 := by
    simp only [isLowUnit, Bool.and_eq_true, decide_eq_true_eq] at lower
    omega
  rw [lowUnit?, unit?_fixed small, Option.filter_some, if_pos lower]

theorem drop_pair (high low : Nat) (rest : List Char) :
    (Hex.fixed .lower 4 high ++ ('\\' :: 'u' :: (Hex.fixed .lower 4 low ++ rest))).drop 10 =
      rest := by
  have twice : ∀ cs : List Char, cs.drop 10 = ((cs.drop 4).drop 2).drop 4 := fun cs => by
    rw [List.drop_drop, List.drop_drop]
  rw [twice, drop_fixed, List.drop_succ_cons, List.drop_one, List.tail_cons, drop_fixed]

/-- A character beyond the first plane is put together again from its two units. -/
theorem unicodeEscape?_pair {c : Char} (large : 0x10000 ≤ c.toNat) (rest : List Char) :
    unicodeEscape? (Hex.fixed .lower 4 (0xD800 + (c.toNat - 0x10000) / 0x400) ++
      ('\\' :: 'u' :: (Hex.fixed .lower 4 (0xDC00 + (c.toNat - 0x10000) % 0x400) ++ rest))) =
        some (.char c, 10) := by
  have bound : c.toNat < 0x110000 := by
    have valid := c.valid
    have same : c.toNat = c.val.toNat := rfl
    rcases valid with low | high
    · omega
    · omega
  generalize whole : c.toNat = n at *
  obtain ⟨high, isHigh⟩ : ∃ high, high = 0xD800 + (n - 0x10000) / 0x400 := ⟨_, rfl⟩
  obtain ⟨low, isLow⟩ : ∃ low, low = 0xDC00 + (n - 0x10000) % 0x400 := ⟨_, rfl⟩
  have upper : isHighUnit high = true := by
    simp only [isHighUnit, Bool.and_eq_true, decide_eq_true_eq]
    omega
  have lower : isLowUnit low = true := by
    simp only [isLowUnit, Bool.and_eq_true, decide_eq_true_eq]
    omega
  have number : 0x10000 + (high - 0xD800) * 0x400 + (low - 0xDC00) = n := by omega
  rw [← isHigh, ← isLow]
  have second : lowUnit? ((Hex.fixed .lower 4 high ++
      ('\\' :: 'u' :: (Hex.fixed .lower 4 low ++ rest))).drop 4) = some low := by
    rw [drop_fixed, lowUnit?_fixed lower]
  rw [unicodeEscape?_of_units (unit?_fixed (by omega) _) upper second, number, ← whole,
    Char.ofNat_toNat]

theorem stringBody_unicode {c : CodePoint} {cs : List Char} {taken : Nat}
    (escaped : unicodeEscape? cs = some (c, taken)) :
    stringBody ('\\' :: 'u' :: cs) = (stringBody (cs.drop taken)).map fun r => (c :: r.1, r.2) := by
  rw [stringBody, escaped]

theorem stringBody_simple {e c : Char} (short : simpleEscape? e = some c) (cs : List Char) :
    stringBody ('\\' :: e :: cs) = (stringBody cs).map fun r => (.char c :: r.1, r.2) := by
  rw [stringBody, short]
  rintro rfl
  cases short

theorem stringBody_plain {c : Char} (quote : c ≠ '"') (backslash : c ≠ '\\')
    (visible : 32 ≤ c.toNat) (cs : List Char) :
    stringBody (c :: cs) = (stringBody cs).map fun r => (.char c :: r.1, r.2) := by
  rw [stringBody, if_neg (by simp [backslash]; omega)]
  · exact quote
  · exact fun _ same _ => backslash same
  · exact fun _ _ same _ => backslash same

theorem stringBody_escapeChar (c : Char) (rest : List Char) :
    stringBody (escapeChar c ++ rest) = (stringBody rest).map fun r => (.char c :: r.1, r.2) := by
  simp only [escapeChar]
  split_ifs with mark feed return' tab back form plain small
  · rcases mark with rfl | rfl
    · exact stringBody_simple rfl rest
    · exact stringBody_simple rfl rest
  · subst feed
    exact stringBody_simple rfl rest
  · subst return'
    exact stringBody_simple rfl rest
  · subst tab
    exact stringBody_simple rfl rest
  · have same : c = Char.ofNat 8 := by rw [← back, Char.ofNat_toNat]
    rw [same]
    exact stringBody_simple rfl rest
  · have same : c = Char.ofNat 12 := by rw [← form, Char.ofNat_toNat]
    rw [same]
    exact stringBody_simple rfl rest
  · rw [not_or] at mark
    exact stringBody_plain mark.1 mark.2 plain.1 rest
  · rw [unitEscape, List.cons_append, List.cons_append,
      stringBody_unicode (unicodeEscape?_unit small rest), drop_fixed]
  · rw [unitEscape, unitEscape, List.append_assoc, List.cons_append, List.cons_append,
      List.cons_append, List.cons_append,
      stringBody_unicode (unicodeEscape?_pair (Nat.le_of_not_lt small) rest), drop_pair]

theorem lowUnit?_cons {c : Char} (backslash : c ≠ '\\') (cs : List Char) :
    lowUnit? (c :: cs) = none := by
  rw [lowUnit?]
  exact fun _ same => backslash (List.cons.inj same).1

theorem lowUnit?_unitEscape {n : Nat} (small : n < 0x10000) (notLow : isLowUnit n = false)
    (rest : List Char) : lowUnit? (unitEscape n ++ rest) = none := by
  rw [unitEscape, List.cons_append, List.cons_append, lowUnit?, unit?_fixed small,
    Option.filter_some, notLow, if_neg Bool.false_ne_true]

theorem lowUnit?_escapeChar (c : Char) (rest : List Char) :
    lowUnit? (escapeChar c ++ rest) = none := by
  obtain ⟨-, notLow⟩ := not_surrogate c
  have bound : c.toNat < 0x110000 := by
    have valid : c.toNat < 0xD800 ∨ 0xDFFF < c.toNat ∧ c.toNat < 0x110000 := c.valid
    omega
  simp only [escapeChar]
  split_ifs with mark feed return' tab back form plain small
  · rcases mark with rfl | rfl <;> rfl
  all_goals try rfl
  · rw [not_or] at mark
    exact lowUnit?_cons mark.2 _
  · exact lowUnit?_unitEscape small notLow rest
  · rw [List.append_assoc]
    refine lowUnit?_unitEscape (by omega) ?_ _
    simp only [isLowUnit, Bool.and_eq_false_iff, decide_eq_false_iff_not]
    omega

theorem lowUnit?_escape {c : CodePoint} (notLow : c.isLow = false) (rest : List Char) :
    lowUnit? (escape c ++ rest) = none := by
  cases c with
  | char c => exact lowUnit?_escapeChar c rest
  | half n => exact lowUnit?_unitEscape (by omega) (by rw [isLowUnit_half, notLow]) rest

theorem stringBody_escape {c : CodePoint} {rest : List Char}
    (alone : c.isHigh = true → lowUnit? rest = none) :
    stringBody (escape c ++ rest) = (stringBody rest).map fun r => (c :: r.1, r.2) := by
  cases c with
  | char c => exact stringBody_escapeChar c rest
  | half n =>
    rw [escape, unitEscape, List.cons_append, List.cons_append,
      stringBody_unicode (unicodeEscape?_half alone), drop_fixed]

theorem stringBody_escaped {w : Wording} (joined : w.Joined) (rest : List Char) :
    stringBody (w.flatMap escape ++ '"' :: rest) = .ok (w, rest) := by
  induction w with
  | nil => rw [List.flatMap_nil, List.nil_append, stringBody]
  | cons c w ih =>
    obtain ⟨apart, joined⟩ := Wording.joined_cons.mp joined
    have alone : c.isHigh = true → lowUnit? (w.flatMap escape ++ '"' :: rest) = none := by
      intro high
      cases w with
      | nil => exact lowUnit?_cons (by decide) _
      | cons next w =>
        rw [List.flatMap_cons, List.append_assoc]
        exact lowUnit?_escape (apart high next rfl) _
    rw [List.flatMap_cons, List.append_assoc, stringBody_escape alone, ih joined]
    rfl

theorem isHigh_ofUnit (n : Nat) : (ofUnit n).isHigh = isHighUnit n := by
  unfold ofUnit
  split_ifs with either
  · simp only [CodePoint.isHigh, isHighUnit, isLowUnit, Fin.ofNat] at either ⊢
    grind
  · simp only [CodePoint.isHigh]
    grind

theorem isLow_ofUnit (n : Nat) : (ofUnit n).isLow = isLowUnit n := by
  unfold ofUnit
  split_ifs with either
  · simp only [CodePoint.isLow, isHighUnit, isLowUnit, Fin.ofNat] at either ⊢
    grind
  · simp only [CodePoint.isLow]
    grind

theorem lowUnit?_of_unicodeEscape? {cs : List Char} {c : CodePoint} {taken : Nat}
    (escaped : unicodeEscape? cs = some (c, taken)) (high : c.isHigh = true) :
    lowUnit? (cs.drop taken) = none := by
  obtain ⟨n, -, read⟩ := Option.bind_eq_some_iff.mp escaped
  split_ifs at read with first
  · split at read
    · cases read
      cases high
    · cases read
      assumption
  · cases read
    rw [isHigh_ofUnit] at high
    exact absurd high first

theorem isLow_of_unicodeEscape? {cs : List Char} {c : CodePoint} {taken : Nat}
    (escaped : unicodeEscape? cs = some (c, taken)) (none : lowUnit? ('\\' :: 'u' :: cs) = none) :
    c.isLow = false := by
  obtain ⟨n, front, read⟩ := Option.bind_eq_some_iff.mp escaped
  rw [lowUnit?, front, Option.filter_eq_none_iff] at none
  have notLow : isLowUnit n = false := by simpa using none
  have unit : (ofUnit n).isLow = false := by rw [isLow_ofUnit, notLow]
  split_ifs at read
  · split at read
    · cases read
      rfl
    · cases read
      exact unit
  · cases read
    exact unit

/-- A text that was read has no pair of halves, and begins with a second half only where the unit
of one stands. -/
theorem joined_of_stringBody {cs rest : List Char} {w : Wording}
    (read : stringBody cs = .ok (w, rest)) :
    w.Joined ∧ (lowUnit? cs = none → ∀ next ∈ w.head?, next.isLow = false) := by
  have char : ∀ {cs : List Char} {c : Char} {w : Wording},
      ((stringBody cs).map fun r => (CodePoint.char c :: r.1, r.2)) = .ok (w, rest) →
      (∀ {w}, stringBody cs = .ok (w, rest) → w.Joined) →
      w.Joined ∧ ∀ next ∈ w.head?, next.isLow = false := by
    rintro cs c w read ih
    obtain ⟨⟨body, rest⟩, inner, ⟨⟩⟩ := of_map_eq_ok read
    exact ⟨Wording.joined_char_cons.mpr (ih inner), by rintro _ ⟨⟩; rfl⟩
  induction cs using stringBody.induct generalizing w with
  | case1 =>
    rw [stringBody] at read
    cases read
  | case2 cs =>
    rw [stringBody] at read
    cases read
    exact ⟨Wording.joined_nil, fun _ => nofun⟩
  | case3 cs c taken escaped ih =>
    rw [stringBody_unicode escaped] at read
    obtain ⟨⟨body, rest⟩, inner, ⟨⟩⟩ := of_map_eq_ok read
    obtain ⟨joined, first⟩ := ih inner
    refine ⟨Wording.joined_cons.mpr ⟨fun high => first ?_, joined⟩, ?_⟩
    · exact lowUnit?_of_unicodeEscape? escaped high
    · rintro absent _ ⟨⟩
      exact isLow_of_unicodeEscape? escaped absent
  | case4 cs failed =>
    rw [stringBody, failed] at read
    cases read
  | case5 e cs other c short ih =>
    rw [stringBody_simple short] at read
    exact (char read fun inner => (ih inner).1).imp_right fun h _ => h
  | case6 e cs other failed =>
    rw [stringBody, failed] at read
    · cases read
    · exact other
  | case7 c cs quote _ _ odd =>
    rw [stringBody, if_pos odd] at read
    all_goals first | assumption | cases read
  | case8 c cs quote _ _ even ih =>
    rw [not_or] at even
    rw [stringBody_plain quote even.1 (Nat.le_of_not_lt even.2)] at read
    exact (char read fun inner => (ih inner).1).imp_right fun h _ => h

end ModuleStubs.Json
