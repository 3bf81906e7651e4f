import ModuleStubs.Decimal.Layout
import ModuleStubs.Decimal.Reading
import ModuleStubs.Yaml.Value

/-! Lenient reading of settings. A value of another kind is turned into the kind
asked for where that makes sense, and counts as absent elsewhere. Only a number
without a text, or without a float, is a fault. -/

namespace ModuleStubs

inductive CoercionFault where
  | numeral (why : Text.Numeral.Fault)
  | tooLarge

def CoercionFault.message : CoercionFault → String
  | .numeral why => why.message
  | .tooLarge => "int too large to convert to float"

namespace Coercion

open Yaml (Value)

def scalarText? : Value → Option (Except Text.Numeral.Fault String)
  | .str s => some (.ok s)
  | .bool true => some (.ok "True")
  | .bool false => some (.ok "False")
  | .int n => some (Text.Numeral.write .usual n)
  | .float x => some (.ok (Decimal.floatText Decimal.plain x))
  | _ => none

def text (v : Value) : Except CoercionFault (Option String) :=
  match scalarText? v with
  | some written => (written.map some).mapError .numeral
  | none => .ok none

def number : Value → Except CoercionFault (Option Float)
  | .int n =>
    match Decimal.ofInt? n with
    | some x => .ok (some x)
    | none => .error .tooLarge
  | .float x => .ok (some x)
  | .str s => .ok (Decimal.parse? s)
  | _ => .ok none

def truth : Value → Option Bool
  | .bool b => some b
  | .str s =>
    match String.ofList ((Text.trimChars s.toList).map Char.toLower) with
    | "true" | "yes" | "1" => some true
    | "false" | "no" | "0" => some false
    | _ => none
  | _ => none

def scalarTexts (items : List Value) : Except CoercionFault (List String) :=
  ((items.filterMap scalarText?).mapM id).mapError .numeral

/-- A single text is a list of one; the numbers of a byte string are its items. -/
def texts : Value → Except CoercionFault (List String)
  | .str s => .ok [s]
  | .bytes data => .ok (data.map fun b => Text.Numeral.text b.toNat)
  | .seq items => scalarTexts items
  | _ => .ok []

def entries (v : Value) : List (Value × Value) := v.entries?.getD []

end Coercion

end ModuleStubs
