import ModuleStubs.Decimal.Reading
import ModuleStubs.Text.Hex
import ModuleStubs.Text.Split
import ModuleStubs.Yaml.Base64
import ModuleStubs.Yaml.Fault
import ModuleStubs.Yaml.Tag
import ModuleStubs.Yaml.Value

/-! The value of a scalar under its tag. A tag may be written before any text, so
the text need not have the form that the tag asks for. -/

namespace ModuleStubs.Yaml

open Text

namespace Scalar

def malformedNumeral (base : Nat) (cs : List Char) : Fault :=
  .numeral (.malformed base (String.ofList cs))

def digitIn? (base : Nat) (c : Char) : Option Nat := (Hex.value? c).filter (· < base)

def dropMark (base : Nat) : List Char → List Char
  | '0' :: m :: rest =>
    if (base = 16 ∧ (m = 'x' ∨ m = 'X')) ∨ (base = 8 ∧ (m = 'o' ∨ m = 'O')) ∨
        (base = 2 ∧ (m = 'b' ∨ m = 'B')) then rest
    else '0' :: m :: rest
  | cs => cs

def numeral (limit : Numeral.Limit) (base : Nat) (cs : List Char) : Except Fault Int :=
  let (negative, size) := Decimal.splitSign ((Numeral.trimMargins cs).map Numeral.plainDigit)
  let ds := dropMark base size
  if ds.isEmpty || !ds.all fun c => (digitIn? base c).isSome then
    .error (malformedNumeral base cs)
  else
    match (if base = 10 then limit else none).exceeded? ds.length with
    | some most => .error (.numeral (.tooLongToRead most ds.length))
    | none =>
      let n : Int := ds.foldl (fun n c => base * n + (digitIn? base c).getD 0) 0
      .ok (if negative then -n else n)

/-- The sum of parts, each sixty times as much as the one after it. -/
def sexagesimal (parts : List Int) : Int := parts.foldl (fun n part => 60 * n + part) 0

def withoutUnderscores (cs : List Char) : List Char := cs.filter (· ≠ '_')

def unsignedInt (limit : Numeral.Limit) (cs : List Char) : Except Fault Int :=
  match cs with
  | [] => .error .emptyNumeral
  | ['0'] => .ok 0
  | '0' :: 'b' :: ds => numeral limit 2 ds
  | '0' :: 'x' :: ds => numeral limit 16 ds
  | '0' :: _ => numeral limit 8 cs
  | _ =>
    if cs.contains ':' then ((splitOn ':' cs).mapM (numeral limit 10)).map sexagesimal
    else numeral limit 10 cs

def int (limit : Numeral.Limit) (cs : List Char) : Except Fault Int :=
  match withoutUnderscores cs with
  | [] => .error .emptyNumeral
  | cs =>
    let (negative, size) := Decimal.splitSign cs
    (unsignedInt limit size).map fun n => if negative then -n else n

def decimal (cs : List Char) : Except Fault Float :=
  match Decimal.parse? (String.ofList cs) with
  | some x => .ok x
  | none => .error (.notDecimal (String.ofList cs))

def sexagesimalFloat (parts : List Float) : Float :=
  (parts.reverse.foldl (fun (acc : Float × Float) part =>
    (acc.1 + part * acc.2, acc.2 * 60)) (0, 1)).1

def unsignedFloat (cs : List Char) : Except Fault Float :=
  if cs = ".inf".toList then .ok (1 / 0)
  else if cs = ".nan".toList then .ok (0 / 0)
  else if cs.contains ':' then ((splitOn ':' cs).mapM decimal).map sexagesimalFloat
  else decimal cs

def float (cs : List Char) : Except Fault Float :=
  match (withoutUnderscores cs).map Char.toLower with
  | [] => .error .emptyNumeral
  | cs =>
    let (negative, size) := Decimal.splitSign cs
    (unsignedFloat size).map (Decimal.signedFloat negative)

def bool (cs : List Char) : Except Fault Bool :=
  let word := String.ofList (cs.map Char.toLower)
  if ["yes", "true", "on"].contains word then .ok true
  else if ["no", "false", "off"].contains word then .ok false
  else .error (.notTruthValue word)

def moment (cs : List Char) : Except Fault Moment :=
  match Moment.parse? cs with
  | none => .error .notMoment
  | some m =>
    match m.fault? with
    | some why => .error (.moment why)
    | none => .ok m

def bytes (cs : List Char) : Except Fault (List UInt8) :=
  match Base64.decode? cs with
  | some data => .ok data
  | none => .error .malformed

def value (limit : Numeral.Limit) (tag : Tag) (cs : List Char) : Except Fault Value :=
  match tag with
  | .null => .ok .null
  | .bool => (bool cs).map .bool
  | .int => (int limit cs).map .int
  | .float => (float cs).map .float
  | .binary => (bytes cs).map .bytes
  | .timestamp => (moment cs).map .moment
  | .str => .ok (.str (String.ofList cs))
  | _ => .error .malformed

end Scalar

end ModuleStubs.Yaml
