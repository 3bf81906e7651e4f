import Mathlib.Algebra.Group.Nat.Defs
import Mathlib.Data.List.Induction
import Mathlib.Tactic.SplitIfs
import ModuleStubs.Text.Numeral

/-! How many digits a whole number has. One that was read from text has not too many to be
written. -/

namespace ModuleStubs.Text

theorem asciiDigit_lt (c : Char) : asciiDigit c < 10 := by
  unfold asciiDigit
  split_ifs with digit
  · simp only [isDigit, Bool.and_eq_true, decide_eq_true_eq] at digit
    have below : c.toNat ≤ '9'.toNat := digit.2
    have top : '9'.toNat = '0'.toNat + 9 := rfl
    omega
  · decide

theorem number_lt_pow (cs : List Char) : number cs < 10 ^ cs.length := by
  induction cs using List.reverseRecOn with
  | nil => decide
  | append_singleton cs c ih =>
    rw [number_append, List.length_append, List.length_singleton, Nat.pow_succ]
    have digit := asciiDigit_lt c
    omega

theorem length_digits_le {n k : Nat} (filled : k ≠ 0) (small : n < 10 ^ k) :
    (digits n).length ≤ k := by
  induction k generalizing n with
  | zero => exact absurd rfl filled
  | succ k ih =>
    rw [digits]
    split_ifs with single
    · exact Nat.le_add_left 1 k
    · rw [Nat.pow_succ] at small
      have more : k ≠ 0 := by
        rintro rfl
        omega
      have quotient : n / 10 < 10 ^ k := by omega
      rw [List.length_append, List.length_singleton]
      exact Nat.succ_le_succ (ih more quotient)

namespace Numeral

def Short (n : Int) : Prop := (digits n.natAbs).length ≤ maxDigits

theorem short_of_read {cs : List Char} {n : Nat} (given : read cs = .ok n) : Short n := by
  unfold read at given
  split_ifs at given with long
  cases given
  have below : number cs < 10 ^ maxDigits :=
    Nat.lt_of_lt_of_le (number_lt_pow cs) (Nat.pow_le_pow_right (by decide) (Nat.le_of_not_lt long))
  exact length_digits_le (by decide) below

end Numeral

end ModuleStubs.Text
