import ModuleStubs.Text.Numeral
import ModuleStubs.Yaml.QuotedScalar

/-! Writing scalars in double quotes. What is not a plain ASCII character is
written as an escape, so a scalar stays on one line whatever it holds. -/

namespace ModuleStubs.Yaml

open Text

def shortEscape? (c : Char) : Option Char :=
  match c.toNat with
  | 0 => some '0'
  | 7 => some 'a'
  | 8 => some 'b'
  | 9 => some 't'
  | 10 => some 'n'
  | 11 => some 'v'
  | 12 => some 'f'
  | 13 => some 'r'
  | 27 => some 'e'
  | 34 => some '"'
  | 92 => some '\\'
  | 0x85 => some 'N'
  | 0xA0 => some '_'
  | 0x2028 => some 'L'
  | 0x2029 => some 'P'
  | _ => none

def numericEscape (n : Nat) : List Char :=
  if n < 0x100 then 'x' :: Hex.fixed .upper 2 n
  else if n < 0x10000 then 'u' :: Hex.fixed .upper 4 n
  else 'U' :: Hex.fixed .upper 8 n

def isPlainAscii (c : Char) : Bool := 32 ≤ c.toNat && c.toNat < 127

def writeChar (c : Char) : List Char :=
  match shortEscape? c with
  | some letter => ['\\', letter]
  | none => if isPlainAscii c then [c] else '\\' :: numericEscape c.toNat

def writeQuoted (cs : List Char) : List Char := '"' :: cs.flatMap writeChar ++ ['"']

theorem namedEscape?_of_shortEscape? {c letter : Char} (h : shortEscape? c = some letter) :
    namedEscape? letter = some c := by
  have named : ∀ n, c.toNat = n → c = Char.ofNat n := fun n hn => by rw [← hn, Char.ofNat_toNat]
  unfold shortEscape? at h
  split at h <;> cases h <;> (next hn => rw [named _ hn]; rfl)

end ModuleStubs.Yaml
