import Mathlib.Data.List.TakeWhile
import ModuleStubs.Yaml.Node
import ModuleStubs.Yaml.Scalar

/-! Whole numbers in decimal notation. Without quotes they are taken for whole numbers, and
their value is the number, unless it has too many digits. -/

namespace ModuleStubs.Text

theorem of_isDigit {p : Char → Prop} (table : ∀ k : Fin 10, p (Char.ofNat ('0'.toNat + k.val)))
    {c : Char} (digit : isDigit c = true) : p c := by
  simp only [isDigit, Bool.and_eq_true, decide_eq_true_eq, Char.le_def, UInt32.le_iff_toNat_le]
    at digit
  have bounds : 48 ≤ c.toNat ∧ c.toNat ≤ 57 := digit
  have same : Char.ofNat ('0'.toNat + (c.toNat - 48)) = c := by
    have code : '0'.toNat + (c.toNat - 48) = c.toNat := by
      change 48 + (c.toNat - 48) = c.toNat
      omega
    rw [code, Char.ofNat_toNat]
  rw [← same]
  exact table ⟨c.toNat - 48, by omega⟩

theorem ne_of_isDigit {c : Char} (digit : isDigit c = true) (other : Char)
    (outside : isDigit other = false) : c ≠ other := by
  rintro rfl
  rw [digit] at outside
  cases outside

theorem isAlphanum_of_isDigit {c : Char} (digit : isDigit c = true) : c.isAlphanum = true :=
  of_isDigit (p := fun c => c.isAlphanum = true) (by decide) digit

theorem isDigit_ofNat {n : Nat} (small : n < 10) : isDigit (Char.ofNat ('0'.toNat + n)) = true := by
  have table : ∀ n : Fin 10, isDigit (Char.ofNat ('0'.toNat + n.val)) = true := by decide
  exact table ⟨n, small⟩

theorem isDigit_of_mem_digits {n : Nat} {c : Char} (mem : c ∈ digits n) : isDigit c = true := by
  fun_induction digits n with
  | case1 n small =>
    rw [List.mem_singleton.mp mem]
    exact isDigit_ofNat small
  | case2 n large ih =>
    rcases List.mem_append.mp mem with early | last
    · exact ih early
    · rw [List.mem_singleton.mp last]
      exact isDigit_ofNat (Nat.mod_lt n (by decide))

theorem digits_ne_nil (n : Nat) : digits n ≠ [] := by
  fun_induction digits n <;> simp

theorem eq_zero_of_head?_digits {n : Nat} (zero : (digits n).head? = some '0') : n = 0 := by
  fun_induction digits n with
  | case1 n small =>
    have table : ∀ n : Fin 10, Char.ofNat ('0'.toNat + n.val) = '0' → n.val = 0 := by decide
    exact table ⟨n, small⟩ (Option.some.inj zero)
  | case2 n large ih =>
    obtain ⟨c, ds, split⟩ := List.exists_cons_of_ne_nil (digits_ne_nil (n / 10))
    rw [split] at zero ih
    have less := ih zero
    omega

theorem digits_eq_cons (n : Nat) : ∃ c ds, digits n = c :: ds ∧
    (∀ d ∈ c :: ds, isDigit d = true) ∧ (c = '0' → ds = []) := by
  obtain ⟨c, ds, split⟩ := List.exists_cons_of_ne_nil (digits_ne_nil n)
  refine ⟨c, ds, split, fun d mem => isDigit_of_mem_digits (split ▸ mem), ?_⟩
  rintro rfl
  have none := eq_zero_of_head?_digits (n := n) (by rw [split]; rfl)
  rw [none, digits] at split
  exact (List.cons.inj split).2.symm

end ModuleStubs.Text

namespace ModuleStubs.Yaml

open Text

theorem notMem_words {words : List String} {c : Char}
    (apart : ∀ w ∈ words, w.toList.head? ≠ some c) (cs : List Char) :
    String.ofList (c :: cs) ∉ words := by
  intro mem
  refine apart _ mem ?_
  rw [String.toList_ofList]
  rfl

namespace Form

def IsSigned (ds cs : List Char) : Prop := cs = ds ∨ cs = '-' :: ds

section

variable {c : Char} {ds cs : List Char} (digits : ∀ d ∈ c :: ds, isDigit d = true)
  (signed : IsSigned (c :: ds) cs)

include digits

theorem dropWhile_digits : (c :: ds).dropWhile isDigitOrLow = [] := by
  refine List.dropWhile_eq_nil_iff.mpr fun d mem => ?_
  rw [isDigitOrLow, digits d mem, Bool.true_or]

include signed

theorem unsigned_of_isSigned : unsigned cs = c :: ds := by
  have apart := ne_of_isDigit (digits c List.mem_cons_self)
  rcases signed with rfl | rfl
  · unfold unsigned
    split
    · next same => exact absurd (List.cons.inj same).1 (apart '+' rfl)
    · next same => exact absurd (List.cons.inj same).1 (apart '-' rfl)
    · rfl
  · rfl

theorem not_isFraction : isFraction cs = false := by
  have noDot := ne_of_isDigit (digits c List.mem_cons_self) '.' rfl
  unfold isFraction
  rw [unsigned_of_isSigned digits signed]
  split
  · next same => exact absurd (List.cons.inj same).1 noDot
  · simp [dropWhile_digits digits]

theorem isWhole_of_digits (zero : c = '0' → ds = []) : isWhole cs = true := by
  have low : ((c :: ds).all isDigitOrLow) = true :=
    List.all_eq_true.mpr fun d mem => by rw [isDigitOrLow, digits d mem, Bool.true_or]
  have digit := digits c List.mem_cons_self
  -- A zero in front stands alone, so this is none of the notations that a zero begins.
  unfold isWhole
  rw [unsigned_of_isSigned digits signed]
  split
  · next same =>
    obtain ⟨first, rest⟩ := List.cons.inj same
    rw [zero first] at rest
    cases rest
  · next same =>
    obtain ⟨first, rest⟩ := List.cons.inj same
    rw [zero first] at rest
    cases rest
  · next same =>
    obtain ⟨first, rest⟩ := List.cons.inj same
    rw [← rest, zero first]
    rfl
  · next notZero =>
    have nonzero : c ≠ '0' := fun same => notZero ds (by rw [same])
    simp [startsWithoutZero, digit, nonzero, low]

omit signed in
theorem ofPlain_of_digits (signed : IsSigned (c :: ds) cs) (zero : c = '0' → ds = []) :
    Tag.ofPlain cs = .int := by
  have noWord (first : Char) (numeric : first = '-' ∨ isDigit first = true) :
      ∀ w ∈ nullWords ++ truthWords, w.toList.head? ≠ some first := by
    rcases numeric with rfl | digit
    · decide +kernel
    · revert digit
      exact of_isDigit (p := fun d => ∀ w ∈ nullWords ++ truthWords, w.toList.head? ≠ some d)
        (by decide +kernel)
  obtain ⟨first, rest, split, numeric⟩ :
      ∃ first rest, cs = first :: rest ∧ (first = '-' ∨ isDigit first = true) := by
    rcases signed with rfl | rfl
    · exact ⟨c, ds, rfl, .inr (digits c List.mem_cons_self)⟩
    · exact ⟨'-', c :: ds, rfl, .inl rfl⟩
  have none := notMem_words (noWord first numeric) rest
  rw [← split, List.mem_append, not_or] at none
  simp [Tag.ofPlain, none, not_isFraction digits signed, isWhole_of_digits digits signed zero]

end

end Form

namespace Scalar

variable {c : Char} {ds : List Char} (digits : ∀ d ∈ c :: ds, isDigit d = true)

include digits

theorem trimMargins_digits : Numeral.trimMargins (c :: ds) = c :: ds := by
  have noMargin : ∀ d ∈ c :: ds, Numeral.isMargin d = false := fun d mem =>
    of_isDigit (p := fun d => Numeral.isMargin d = false) (by decide) (digits d mem)
  have front (cs : List Char) (none : ∀ d ∈ cs, Numeral.isMargin d = false) :
      cs.dropWhile Numeral.isMargin = cs := by
    cases cs with
    | nil => rfl
    | cons d cs => simp [none d List.mem_cons_self]
  have back : ∀ d ∈ (c :: ds).reverse, Numeral.isMargin d = false := fun d mem =>
    noMargin d (List.mem_reverse.mp mem)
  rw [Numeral.trimMargins, front _ noMargin, front _ back, List.reverse_reverse]

theorem map_plainDigit_digits : (c :: ds).map Numeral.plainDigit = c :: ds := by
  refine (List.map_congr_left fun d mem => ?_).trans (List.map_id (c :: ds))
  exact of_isDigit (p := fun d => Numeral.plainDigit d = d) (by decide) (digits d mem)

theorem splitSign_digits : Decimal.splitSign (c :: ds) = (false, c :: ds) := by
  have apart := ne_of_isDigit (digits c List.mem_cons_self)
  unfold Decimal.splitSign
  split
  · next same => exact absurd (List.cons.inj same).1 (apart '-' rfl)
  · next same => exact absurd (List.cons.inj same).1 (apart '+' rfl)
  · rfl

omit digits in
theorem dropMark_ten (cs : List Char) : dropMark 10 cs = cs := by
  unfold dropMark
  split
  · simp
  · rfl

omit digits in
theorem foldl_digitIn? {ds : List Char} (digits : ∀ d ∈ ds, isDigit d = true) (start : Nat) :
    ds.foldl (fun (n : Int) d => (10 : Nat) * n + ((digitIn? 10 d).getD 0 : Nat)) start =
      (ds.foldl (fun n d => 10 * n + asciiDigit d) start : Nat) := by
  induction ds generalizing start with
  | nil => rfl
  | cons d ds ih =>
    obtain ⟨first, others⟩ := List.forall_mem_cons.mp digits
    have same : (digitIn? 10 d).getD 0 = asciiDigit d :=
      of_isDigit (p := fun d => (digitIn? 10 d).getD 0 = asciiDigit d) (by decide) first
    rw [List.foldl_cons, List.foldl_cons, same, ← ih others]
    push_cast
    rfl

theorem numeral_of_digits {limit : Numeral.Limit} (fits : limit.exceeded? (c :: ds).length = none) :
    numeral limit 10 (c :: ds) = .ok (number (c :: ds)) := by
  have read : (c :: ds).all (fun d => (digitIn? 10 d).isSome) = true :=
    List.all_eq_true.mpr fun d mem =>
      of_isDigit (p := fun d => (digitIn? 10 d).isSome = true) (by decide) (digits d mem)
  have sum := foldl_digitIn? digits 0
  rw [numeral, trimMargins_digits digits, map_plainDigit_digits digits, splitSign_digits digits]
  simp only [dropMark_ten, read, List.isEmpty_cons, Bool.not_true, Bool.or_self, Bool.false_eq_true,
    if_false, if_true, fits]
  exact congrArg Except.ok sum

theorem unsignedInt_of_digits {limit : Numeral.Limit} (zero : c = '0' → ds = [])
    (fits : limit.exceeded? (c :: ds).length = none) :
    unsignedInt limit (c :: ds) = .ok (number (c :: ds)) := by
  have noColon : (c :: ds).contains ':' = false := by
    rw [List.contains_eq_mem, decide_eq_false_iff_not]
    exact fun mem => ne_of_isDigit (digits ':' mem) ':' rfl rfl
  by_cases first : c = '0'
  · rw [zero first, first]
    rfl
  · unfold unsignedInt
    split
    · next same => cases same
    · next same => exact absurd (List.cons.inj same).1 first
    · next same => exact absurd (List.cons.inj same).1 first
    · next same => exact absurd (List.cons.inj same).1 first
    · next same => exact absurd (List.cons.inj same).1 first
    · rw [noColon]
      exact numeral_of_digits digits fits

end Scalar

theorem isSigned_signed (n : Int) : Form.IsSigned (digits n.natAbs) (Numeral.signed n) := by
  unfold Numeral.signed
  split
  · exact .inr rfl
  · exact .inl rfl

theorem ofPlain_signed (n : Int) : Tag.ofPlain (Numeral.signed n) = .int := by
  obtain ⟨c, ds, split, all, zero⟩ := digits_eq_cons n.natAbs
  exact Form.ofPlain_of_digits all (split ▸ isSigned_signed n) zero

/-- A whole number as it is written is read back, if it does not have too many digits. -/
theorem int_signed {limit : Numeral.Limit} {n : Int}
    (fits : limit.exceeded? (digits n.natAbs).length = none) :
    Scalar.int limit (Numeral.signed n) = .ok n := by
  obtain ⟨c, ds, split, all, zero⟩ := digits_eq_cons n.natAbs
  have size : number (c :: ds) = n.natAbs := by rw [← split, number_digits]
  have kept : Scalar.withoutUnderscores (c :: ds) = c :: ds :=
    List.filter_eq_self.mpr fun d mem => by simpa using ne_of_isDigit (all d mem) '_' rfl
  rw [split] at fits
  have read := Scalar.unsignedInt_of_digits all zero fits
  rw [Numeral.signed, split]
  split
  · next negative =>
    have signed : Scalar.withoutUnderscores ('-' :: c :: ds) = '-' :: c :: ds :=
      congrArg (List.cons '-') kept
    rw [Scalar.int, signed]
    change (Scalar.unsignedInt limit (c :: ds)).map (fun n => -n) = _
    rw [read, size]
    exact congrArg Except.ok (show -(n.natAbs : Int) = n by omega)
  · next positive =>
    rw [Scalar.int, kept]
    simp only [Scalar.splitSign_digits all]
    change (Scalar.unsignedInt limit (c :: ds)).map id = _
    rw [read, size]
    exact congrArg Except.ok (show (n.natAbs : Int) = n by omega)

end ModuleStubs.Yaml
