import ModuleStubs.Decimal.Layout
import ModuleStubs.Json.Value
import ModuleStubs.Text.Numeral

/-! JSON text in ASCII. A style says what stands between the items of a list or
object; what is no ASCII character is written as one or two escapes of four digits. -/

namespace ModuleStubs.Json

open Text

structure Style where
  /-- What comes before an item at this depth, and before the closing bracket. -/
  lineBreak : (depth : Nat) → List Char
  afterColon : List Char

def compact : Style := ⟨fun _ => [], []⟩

def indented (width : Nat) : Style :=
  ⟨fun depth => '\n' :: List.replicate (width * depth) ' ', [' ']⟩

def unitEscape (n : Nat) : List Char := '\\' :: 'u' :: Hex.fixed .lower 4 n

def escapeChar (c : Char) : List Char :=
  let n := c.toNat
  if c = '"' ∨ c = '\\' then ['\\', c]
  else if c = '\n' then ['\\', 'n']
  else if c = '\r' then ['\\', 'r']
  else if c = '\t' then ['\\', 't']
  else if n = 8 then ['\\', 'b']
  else if n = 12 then ['\\', 'f']
  else if 32 ≤ n ∧ n < 127 then [c]
  else if n < 0x10000 then unitEscape n
  else unitEscape (0xD800 + (n - 0x10000) / 0x400) ++ unitEscape (0xDC00 + (n - 0x10000) % 0x400)

def escape : CodePoint → List Char
  | .char c => escapeChar c
  | .half n => unitEscape (0xD800 + n.val)

def writeString (s : Wording) : List Char := '"' :: s.flatMap escape ++ ['"']

def floatLayout : Decimal.Layout :=
  { Decimal.plain with infinity := "Infinity", notANumber := "NaN" }

mutual

def write (style : Style) (depth : Nat) : Json → List Char
  | .null => "null".toList
  | .bool true => "true".toList
  | .bool false => "false".toList
  | .int n => Numeral.signed n
  | .float x => (Decimal.floatText floatLayout x).toList
  | .str s => writeString s
  | .arr [] => ['[', ']']
  | .arr (item :: items) =>
    '[' :: style.lineBreak (depth + 1) ++ write style (depth + 1) item ++
      writeItems style (depth + 1) items ++ style.lineBreak depth ++ [']']
  | .obj [] => ['\x7b', '\x7d']
  | .obj ((key, value) :: fields) =>
    '\x7b' :: style.lineBreak (depth + 1) ++ writeString key ++ ':' :: style.afterColon ++
      write style (depth + 1) value ++ writeFields style (depth + 1) fields ++
      style.lineBreak depth ++ ['\x7d']

def writeItems (style : Style) (depth : Nat) : List Json → List Char
  | [] => []
  | item :: items =>
    ',' :: style.lineBreak depth ++ write style depth item ++ writeItems style depth items

def writeFields (style : Style) (depth : Nat) : List (Wording × Json) → List Char
  | [] => []
  | (key, value) :: fields =>
    ',' :: style.lineBreak depth ++ writeString key ++ ':' :: style.afterColon ++
      write style depth value ++ writeFields style depth fields

end

def text (style : Style) (v : Json) : String := String.ofList (write style 0 v)

end ModuleStubs.Json
