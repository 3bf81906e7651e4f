import ModuleStubs.Decimal.Reading
import ModuleStubs.Json.Value
import ModuleStubs.Text.Cut
import ModuleStubs.Text.Hex

/-! Reading JSON text. A number with a fraction or an exponent is a float, any
other an integer; the words for infinities and for no number are read as floats. Half of
a surrogate pair without its other half is kept. Each reader takes the front of the text and
hands back the rest. -/

namespace ModuleStubs.Json

open Text

inductive Fault where
  | malformed
  | number (why : Numeral.Fault)

def isSpace (c : Char) : Bool := c = ' ' || c = '\t' || c = '\n' || c = '\r'

def skipSpace (cs : List Char) : List Char := cs.dropWhile isSpace

def unit? (cs : List Char) : Option Nat :=
  let ds := cs.take 4
  if ds.length = 4 ∧ ds.all Hex.isDigit then some (Hex.number ds) else none

def isHighUnit (n : Nat) : Bool := 0xD800 ≤ n && n < 0xDC00

def isLowUnit (n : Nat) : Bool := 0xDC00 ≤ n && n < 0xE000

def lowUnit? : List Char → Option Nat
  | '\\' :: 'u' :: cs => (unit? cs).filter isLowUnit
  | _ => none

/-- What a unit stands for that is no first half with a second one after it. -/
def ofUnit (n : Nat) : CodePoint :=
  if isHighUnit n || isLowUnit n then .half (Fin.ofNat 0x800 (n - 0xD800)) else .char (Char.ofNat n)

def unicodeEscape? (cs : List Char) : Option (CodePoint × Nat) := do
  let high ← unit? cs
  if isHighUnit high then
    match lowUnit? (cs.drop 4) with
    | some low =>
      some (.char (Char.ofNat (0x10000 + (high - 0xD800) * 0x400 + (low - 0xDC00))), 10)
    | none => some (ofUnit high, 4)
  else some (ofUnit high, 4)

def simpleEscape? : Char → Option Char
  | '"' => some '"'
  | '\\' => some '\\'
  | '/' => some '/'
  | 'b' => some (Char.ofNat 8)
  | 'f' => some (Char.ofNat 12)
  | 'n' => some '\n'
  | 'r' => some '\r'
  | 't' => some '\t'
  | _ => none

def stringBody : List Char → Except Fault (Wording × List Char)
  | [] => .error .malformed
  | '"' :: rest => .ok ([], rest)
  | '\\' :: 'u' :: rest =>
    match unicodeEscape? rest with
    | some (c, taken) => (stringBody (rest.drop taken)).map fun r => (c :: r.1, r.2)
    | none => .error .malformed
  | '\\' :: e :: rest =>
    match simpleEscape? e with
    | some c => (stringBody rest).map fun r => (.char c :: r.1, r.2)
    | none => .error .malformed
  | c :: rest =>
    if c = '\\' ∨ c.toNat < 32 then .error .malformed
    else (stringBody rest).map fun r => (.char c :: r.1, r.2)
termination_by cs => cs.length
decreasing_by all_goals simp only [List.length_cons, List.length_drop]; omega

def integer (negative : Bool) (ds rest : List Char) : Except Fault (Json × List Char) :=
  match Numeral.read ds with
  | .ok n => .ok (.int (if negative then -(n : Int) else n), rest)
  | .error why => .error (.number why)

def fraction : List Char → List Char × List Char
  | '.' :: rest =>
    if (rest.takeWhile isDigit).isEmpty then ([], '.' :: rest)
    else (rest.takeWhile isDigit, rest.dropWhile isDigit)
  | cs => ([], cs)

def exponent : List Char → Option Int × List Char
  | cs@(mark :: rest) =>
    let (negative, size) := Decimal.splitSign rest
    let ds := size.takeWhile isDigit
    if (mark = 'e' ∨ mark = 'E') ∧ ds ≠ [] then
      (some (if negative then -(number ds : Int) else number ds), size.dropWhile isDigit)
    else (none, cs)
  | [] => (none, [])

def unsigned (negative : Bool) (cs : List Char) : Except Fault (Json × List Char) :=
  let whole := if cs.head? = some '0' then ['0'] else cs.takeWhile isDigit
  if whole.isEmpty then .error .malformed
  else
    let (ds, rest) := fraction (cs.drop whole.length)
    let (e, rest) := exponent rest
    if ds.isEmpty && e.isNone then integer negative whole rest
    else
      let size := Decimal.nearest (number (whole ++ ds)) (e.getD 0 - ds.length)
      .ok (.float (Decimal.signedFloat negative size), rest)

def number (cs : List Char) : Except Fault (Json × List Char) :=
  match cs with
  | '-' :: rest =>
    match after? "Infinity".toList rest with
    | some rest => .ok (.float (-(1 / 0)), rest)
    | none => unsigned true rest
  | cs => unsigned false cs

def named? (cs : List Char) : Option (Json × List Char) :=
  ((after? "null".toList cs).map (Json.null, ·)).or <|
  ((after? "true".toList cs).map (Json.bool true, ·)).or <|
  ((after? "false".toList cs).map (Json.bool false, ·)).or <|
  ((after? "NaN".toList cs).map (Json.float (0 / 0), ·)).or <|
  ((after? "Infinity".toList cs).map (Json.float (1 / 0), ·))

mutual

/-- A value; `fuel` bounds the depth and the length of lists together. -/
def value (fuel : Nat) (cs : List Char) : Except Fault (Json × List Char) :=
  match fuel with
  | 0 => .error .malformed
  | fuel + 1 =>
    match cs with
    | '"' :: rest => (stringBody rest).map fun r => (.str r.1, r.2)
    | '[' :: rest =>
      match skipSpace rest with
      | ']' :: rest => .ok (.arr [], rest)
      | rest => do
        let (first, rest) ← value fuel rest
        let (items, rest) ← itemsAfter fuel (skipSpace rest)
        .ok (.arr (first :: items), rest)
    | '\x7b' :: rest =>
      match skipSpace rest with
      | '\x7d' :: rest => .ok (.obj [], rest)
      | rest => do
        let (first, rest) ← field fuel rest
        let (fields, rest) ← fieldsAfter fuel (skipSpace rest)
        .ok (.obj (ofPairs (first :: fields)), rest)
    | cs =>
      match named? cs with
      | some read => .ok read
      | none => number cs

def itemsAfter (fuel : Nat) (cs : List Char) : Except Fault (List Json × List Char) :=
  match fuel with
  | 0 => .error .malformed
  | fuel + 1 =>
    match cs with
    | ']' :: rest => .ok ([], rest)
    | ',' :: rest => do
      let (item, rest) ← value fuel (skipSpace rest)
      let (items, rest) ← itemsAfter fuel (skipSpace rest)
      .ok (item :: items, rest)
    | _ => .error .malformed

def field (fuel : Nat) (cs : List Char) : Except Fault ((Wording × Json) × List Char) :=
  match fuel with
  | 0 => .error .malformed
  | fuel + 1 =>
    match cs with
    | '"' :: rest => do
      let (key, rest) ← stringBody rest
      match skipSpace rest with
      | ':' :: rest => do
        let (item, rest) ← value fuel (skipSpace rest)
        .ok ((key, item), rest)
      | _ => .error .malformed
    | _ => .error .malformed

def fieldsAfter (fuel : Nat) (cs : List Char) : Except Fault (List (Wording × Json) × List Char) :=
  match fuel with
  | 0 => .error .malformed
  | fuel + 1 =>
    match cs with
    | '\x7d' :: rest => .ok ([], rest)
    | ',' :: rest => do
      let (item, rest) ← field fuel (skipSpace rest)
      let (fields, rest) ← fieldsAfter fuel (skipSpace rest)
      .ok (item :: fields, rest)
    | _ => .error .malformed

end

/-- The value of a whole text; each step of the readers takes at least one character. -/
def readChars (cs : List Char) : Except Fault Json := do
  let (v, rest) ← value (2 * cs.length + 1) (skipSpace cs)
  if (skipSpace rest).isEmpty then .ok v else .error .malformed

def read (s : String) : Except Fault Json := readChars s.toList

end ModuleStubs.Json
