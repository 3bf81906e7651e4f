/-! Hexadecimal digits of a fixed width, as escapes write them. -/

namespace ModuleStubs.Text.Hex

inductive Letters where
  | lower
  | upper

def Letters.first : Letters → Nat
  | .lower => 'a'.toNat
  | .upper => 'A'.toNat

def digit (letters : Letters) (n : Nat) : Char :=
  if n < 10 then Char.ofNat ('0'.toNat + n) else Char.ofNat (letters.first + (n - 10))

/-- The last `width` digits of `n`, padded with zeros. -/
def fixed (letters : Letters) : (width : Nat) → (n : Nat) → List Char
  | 0, _ => []
  | width + 1, n => fixed letters width (n / 16) ++ [digit letters (n % 16)]

def value? (c : Char) : Option Nat :=
  if '0' ≤ c ∧ c ≤ '9' then some (c.toNat - '0'.toNat)
  else if 'a' ≤ c ∧ c ≤ 'f' then some (c.toNat - 'a'.toNat + 10)
  else if 'A' ≤ c ∧ c ≤ 'F' then some (c.toNat - 'A'.toNat + 10)
  else none

def isDigit (c : Char) : Bool := (value? c).isSome

def number (cs : List Char) : Nat :=
  cs.foldl (fun n c => 16 * n + (value? c).getD 0) 0

@[simp] theorem length_fixed (letters : Letters) (width n : Nat) :
    (fixed letters width n).length = width := by
  induction width generalizing n with
  | zero => rfl
  | succ width ih => simp [fixed, ih]

theorem value?_digit (letters : Letters) {n : Nat} (small : n < 16) :
    value? (digit letters n) = some n := by
  have table : ∀ n : Fin 16, value? (digit .lower n.val) = some n.val ∧
      value? (digit .upper n.val) = some n.val := by decide
  cases letters with
  | lower => exact (table ⟨n, small⟩).1
  | upper => exact (table ⟨n, small⟩).2

theorem isDigit_of_mem_fixed {letters : Letters} {width n : Nat} {c : Char}
    (mem : c ∈ fixed letters width n) : isDigit c = true := by
  induction width generalizing n with
  | zero => cases mem
  | succ width ih =>
    rcases List.mem_append.mp mem with early | last
    · exact ih early
    · rw [List.mem_singleton.mp last, isDigit, value?_digit letters (Nat.mod_lt n (by decide))]
      rfl

theorem number_fixed (letters : Letters) {width n : Nat} (small : n < Nat.pow 16 width) :
    number (fixed letters width n) = n := by
  induction width generalizing n with
  | zero =>
    have none : n = 0 := Nat.lt_one_iff.mp small
    rw [none]
    rfl
  | succ width ih =>
    have early := ih (n := n / 16) (Nat.div_lt_of_lt_mul (Nat.mul_comm 16 _ ▸ small))
    have last := value?_digit letters (Nat.mod_lt n (show 16 > 0 by decide))
    simp only [number] at early
    simp only [number, fixed, List.foldl_append, List.foldl_cons, List.foldl_nil, early, last,
      Option.getD_some]
    omega

end ModuleStubs.Text.Hex
