import Mathlib.Data.List.TakeWhile
import ModuleStubs.Json.Reader

/-! Numerals that are too long end the reading of a text, which is a fault of its own. -/

namespace ModuleStubs.Json
open Text

theorem unsigned_of_long {ds : List Char} (digits : ∀ c ∈ ds, isDigit c = true)
    (head : ds.head? ≠ some '0') (long : Numeral.maxDigits < ds.length) (negative : Bool) :
    unsigned negative ds = .error (.number (.tooLongToRead Numeral.maxDigits ds.length)) := by
  have whole : ds.takeWhile isDigit = ds := List.takeWhile_eq_self_iff.mpr digits
  have filled : ds.isEmpty = false := by
    cases ds with
    | nil => exact absurd long (by decide)
    | cons c ds => rfl
  simp only [unsigned, if_neg head, whole, filled, List.drop_length, fraction, exponent]
  simp [integer, Numeral.read, long]

theorem value_of_nine (fuel : Nat) (rest : List Char) :
    value (fuel + 1) ('9' :: rest) = unsigned false ('9' :: rest) := by
  rw [value]
  · rfl
  · exact nofun
  · exact nofun
  · exact nofun

theorem readChars_of_long {n : Nat} (long : Numeral.maxDigits < n) :
    readChars (List.replicate n '9') = .error (.number (.tooLongToRead Numeral.maxDigits n)) := by
  cases n with
  | zero => exact absurd long (by decide)
  | succ n =>
    have digits : ∀ c ∈ List.replicate (n + 1) '9', isDigit c = true := by
      intro c mem
      rw [List.eq_of_mem_replicate mem]
      rfl
    have failed := unsigned_of_long digits (by simp [List.replicate_succ])
      (by rwa [List.length_replicate]) false
    rw [List.length_replicate] at failed
    have front : skipSpace (List.replicate (n + 1) '9') = List.replicate (n + 1) '9' := rfl
    rw [readChars, front]
    rw [List.replicate_succ] at failed ⊢
    rw [value_of_nine, failed]
    rfl

theorem read_of_long {n : Nat} (long : Numeral.maxDigits < n) :
    read (String.ofList (List.replicate n '9')) =
      .error (.number (.tooLongToRead Numeral.maxDigits n)) := by
  rw [read, String.toList_ofList]
  exact readChars_of_long long

end ModuleStubs.Json
