/-! Floating-point numbers of 64 bits as whole multiples of powers of two. A
finite number of positive size is `significand * 2 ^ exponent`. -/

namespace ModuleStubs.Decimal

structure Binary64 where
  significand : Nat
  exponent : Int
  /-- Whether the next number below is only half a step away. -/
  closeBelow : Bool

inductive Kind where
  | notANumber
  | infinite
  | zero
  | finite (size : Binary64)

def isNegative (x : Float) : Bool := x.toBits.toNat / Nat.pow 2 63 == 1

def kind (x : Float) : Kind :=
  let fraction : Nat := x.toBits.toNat % Nat.pow 2 52
  let biased : Nat := x.toBits.toNat / Nat.pow 2 52 % 2048
  if biased = 2047 then if fraction = 0 then .infinite else .notANumber
  else if biased = 0 then if fraction = 0 then .zero else .finite ⟨fraction, -1074, false⟩
  else .finite ⟨Nat.pow 2 52 + fraction, (biased : Int) - 1075, fraction = 0 && 1 < biased⟩

structure Ratio where
  num : Nat
  den : Nat

def Ratio.scale (r : Ratio) (base : Nat) : (power : Int) → Ratio
  | .ofNat n => ⟨r.num * base.pow n, r.den⟩
  | .negSucc n => ⟨r.num, r.den * base.pow (n + 1)⟩

/-- The part of the interval below or above, in quarters of a step. -/
def Binary64.quarters (b : Binary64) (offset : Int) : Ratio :=
  Ratio.scale ⟨(4 * (b.significand : Int) + offset).toNat, 4⟩ 2 b.exponent

def Binary64.value (b : Binary64) : Ratio := b.quarters 0

def Binary64.lower (b : Binary64) : Ratio := b.quarters (if b.closeBelow then -1 else -2)

def Binary64.upper (b : Binary64) : Ratio := b.quarters 2

def Ratio.lt (a b : Ratio) : Bool := a.num * b.den < b.num * a.den

def Ratio.le (a b : Ratio) : Bool := a.num * b.den ≤ b.num * a.den

/-- Whether a size rounds to the number; the ends do when the significand is even. -/
def Binary64.covers (b : Binary64) (r : Ratio) : Bool :=
  if b.significand % 2 = 0 then b.lower.le r && r.le b.upper else b.lower.lt r && r.lt b.upper

end ModuleStubs.Decimal
