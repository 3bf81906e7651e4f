/-! Decimal digits of every script. Each script has its ten digits in a row, so
the table holds the zeros only. -/

namespace ModuleStubs.Text

def zeroDigits : List Nat :=
  [0x30, 0x660, 0x6F0, 0x7C0, 0x966, 0x9E6, 0xA66, 0xAE6, 0xB66, 0xBE6, 0xC66, 0xCE6, 0xD66,
   0xDE6, 0xE50, 0xED0, 0xF20, 0x1040, 0x1090, 0x17E0, 0x1810, 0x1946, 0x19D0, 0x1A80, 0x1A90,
   0x1B50, 0x1BB0, 0x1C40, 0x1C50, 0xA620, 0xA8D0, 0xA900, 0xA9D0, 0xA9F0, 0xAA50, 0xABF0,
   0xFF10, 0x104A0, 0x10D30, 0x11066, 0x110F0, 0x11136, 0x111D0, 0x112F0, 0x11450, 0x114D0,
   0x11650, 0x116C0, 0x11730, 0x118E0, 0x11950, 0x11C50, 0x11D50, 0x11DA0, 0x16A60, 0x16AC0,
   0x16B50, 0x1D7CE, 0x1D7D8, 0x1D7E2, 0x1D7EC, 0x1D7F6, 0x1E140, 0x1E2F0, 0x1E950, 0x1FBF0]

def digitValue? (c : Char) : Option Nat :=
  (zeroDigits.find? fun first => first ≤ c.toNat && c.toNat < first + 10).map (c.toNat - ·)

def isDigit (c : Char) : Bool := '0' ≤ c && c ≤ '9'

def asciiDigit (c : Char) : Nat := if isDigit c then c.toNat - '0'.toNat else 0

def number (cs : List Char) : Nat := cs.foldl (fun n c => 10 * n + asciiDigit c) 0

def digits (n : Nat) : List Char :=
  if n < 10 then [Char.ofNat ('0'.toNat + n)]
  else digits (n / 10) ++ [Char.ofNat ('0'.toNat + n % 10)]

theorem number_append (a : List Char) (c : Char) :
    number (a ++ [c]) = 10 * number a + asciiDigit c := by
  simp [number]

theorem asciiDigit_ofNat {n : Nat} (h : n < 10) : asciiDigit (Char.ofNat ('0'.toNat + n)) = n := by
  have : ∀ n : Fin 10, asciiDigit (Char.ofNat ('0'.toNat + n.val)) = n.val := by decide
  exact this ⟨n, h⟩

@[simp] theorem number_digits (n : Nat) : number (digits n) = n := by
  fun_induction digits n with
  | case1 n h => simpa [number] using asciiDigit_ofNat h
  | case2 n h ih =>
    rw [number_append, ih, asciiDigit_ofNat (Nat.mod_lt n (by decide))]
    omega

end ModuleStubs.Text
