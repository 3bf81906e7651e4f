import ModuleStubs.Text.Numeral

/-! Numbers read from decimal text. The nearest float is taken; a number out of
range reads as infinity or zero. -/

namespace ModuleStubs.Decimal

open Text

/-- Beyond this power of ten every number is infinite, or zero on the other side. -/
def farPower : Int := 400

def nearest (digits : Nat) (scale : Int) : Float :=
  if digits = 0 then 0
  else
    let lead := scale + (Text.digits digits).length
    if farPower < lead then Float.ofScientific 1 false farPower.toNat
    else if lead < -farPower then 0
    else Float.ofScientific digits (scale < 0) scale.natAbs

def signedFloat (negative : Bool) (x : Float) : Float := if negative then -x else x

def ofInt? (n : Int) : Option Float :=
  let size := nearest n.natAbs 0
  if size.isInf then none else some (signedFloat (n < 0) size)

def splitSign : List Char → Bool × List Char
  | '-' :: rest => (true, rest)
  | '+' :: rest => (false, rest)
  | cs => (false, cs)

def exponent? : List Char → Option Int
  | [] => some 0
  | mark :: rest =>
    let (negative, ds) := splitSign rest
    if (mark = 'e' ∨ mark = 'E') ∧ ds ≠ [] ∧ ds.all isDigit then
      some (if negative then -(number ds : Int) else number ds)
    else none

/-- Digits with at most one point, at least one digit, and at most one exponent. -/
def unsigned? (cs : List Char) : Option Float :=
  let whole := cs.takeWhile isDigit
  let (fraction, rest) :=
    match cs.dropWhile isDigit with
    | '.' :: rest => (rest.takeWhile isDigit, rest.dropWhile isDigit)
    | rest => ([], rest)
  if whole.isEmpty && fraction.isEmpty then none
  else (exponent? rest).map fun e => nearest (number (whole ++ fraction)) (e - fraction.length)

def named? (cs : List Char) : Option Float :=
  match String.ofList (cs.map Char.toLower) with
  | "inf" | "infinity" => some (1 / 0)
  | "nan" => some (0 / 0)
  | _ => none

def parse? (s : String) : Option Float := do
  let cs ← Numeral.dropUnderscores? false ((Numeral.trimMargins s.toList).map Numeral.plainDigit)
  let (negative, size) := splitSign cs
  let x ← (named? size).or (unsigned? size)
  some (signedFloat negative x)

end ModuleStubs.Decimal
