/-! Bytes written in base 64. Characters outside the alphabet are passed over. -/

namespace ModuleStubs.Yaml.Base64

def sextet? (c : Char) : Option Nat :=
  if 'A' ≤ c ∧ c ≤ 'Z' then some (c.toNat - 'A'.toNat)
  else if 'a' ≤ c ∧ c ≤ 'z' then some (c.toNat - 'a'.toNat + 26)
  else if '0' ≤ c ∧ c ≤ '9' then some (c.toNat - '0'.toNat + 52)
  else if c = '+' then some 62
  else if c = '/' then some 63
  else none

/-- Reads on after `place` sextets of a group of four, whose last unused bits are
`left`; `pads` equal signs have just been met. -/
def groups? (place left pads : Nat) : List Char → Option (List UInt8)
  | [] => if place = 0 then some [] else none
  | c :: cs =>
    if c = '=' then
      if 2 ≤ place then
        if 4 ≤ place + pads + 1 then some [] else groups? place left (pads + 1) cs
      else groups? place left pads cs
    else
      match sextet? c with
      | none => groups? place left pads cs
      | some s =>
        match place with
        | 0 => groups? 1 s 0 cs
        | 1 => (UInt8.ofNat (left * 4 + s / 16) :: ·) <$> groups? 2 (s % 16) 0 cs
        | 2 => (UInt8.ofNat (left * 16 + s / 4) :: ·) <$> groups? 3 (s % 4) 0 cs
        | _ => (UInt8.ofNat (left * 64 + s) :: ·) <$> groups? 0 0 0 cs

def decode? (cs : List Char) : Option (List UInt8) :=
  if cs.all fun c => c.toNat < 128 then groups? 0 0 0 cs else none

end ModuleStubs.Yaml.Base64
