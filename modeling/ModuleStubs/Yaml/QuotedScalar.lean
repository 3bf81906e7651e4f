import ModuleStubs.Text.Hex
import ModuleStubs.Yaml.Fault
import ModuleStubs.Yaml.Folding

/-! Scalars in single or double quotes. Only double quotes know escapes; a single
quote inside single quotes is written twice. -/

namespace ModuleStubs.Yaml

open Text

inductive Quote where
  | single
  | double
  deriving DecidableEq

def Quote.char : Quote → Char
  | .single => '\''
  | .double => '"'

def namedEscape? (ch : Char) : Option Char :=
  match ch with
  | '0' => some (Char.ofNat 0)
  | 'a' => some (Char.ofNat 7)
  | 'b' => some (Char.ofNat 8)
  | 't' => some '\t'
  | '\t' => some '\t'
  | 'n' => some '\n'
  | 'v' => some (Char.ofNat 11)
  | 'f' => some (Char.ofNat 12)
  | 'r' => some '\r'
  | 'e' => some (Char.ofNat 27)
  | ' ' => some ' '
  | '"' => some '"'
  | '\\' => some '\\'
  | '/' => some '/'
  | 'N' => some nextLine
  | '_' => some (Char.ofNat 0xA0)
  | 'L' => some lineSeparator
  | 'P' => some paragraphSeparator
  | _ => none

def escapeWidth? : Char → Option Nat
  | 'x' => some 2
  | 'u' => some 4
  | 'U' => some 8
  | _ => none

/-- The character with a number; half of a pair is shown as replaced. -/
def charOfCode (code : Nat) : Except Fault Char :=
  if 0x110000 ≤ code then .error (.noCharacter code)
  else if 0xD800 ≤ code ∧ code < 0xE000 then .ok (Char.ofNat 0xFFFD)
  else .ok (Char.ofNat code)

def escape (c : Cursor) : Except Fault (List Char × Cursor) :=
  match c.rest with
  | [] => .error .malformed
  | ch :: rest =>
    match namedEscape? ch with
    | some named => .ok ([named], c.step)
    | none =>
      match escapeWidth? ch with
      | some width =>
        let ds := rest.take width
        if ds.length = width ∧ ds.all Hex.isDigit then
          (charOfCode (Hex.number ds)).map fun coded => ([coded], c.step.skip width)
        else .error .malformed
      | none =>
        if isBreak ch then
          match quotedBreaks? (c.rest.length + 1) c.step with
          | some (more, c) => .ok (more, c)
          | none => .error .malformed
        else .error .malformed

/-- Blanks inside quotes; those around a line end fold away. -/
def quotedGap (c : Cursor) : Except Fault (List Char × Cursor) :=
  let (blanks, c) := c.run isBlank
  match c.rest, c.lineBreak? with
  | [], _ => .error .malformed
  | _, none => .ok (blanks, c)
  | _, some (ch, c) =>
    match quotedBreaks? (c.rest.length + 1) c with
    | some (more, c) => .ok (folded ch more, c)
    | none => .error .malformed

def quotedText (fuel : Nat) (quote : Quote) (c : Cursor) : Except Fault (List Char × Cursor) :=
  match fuel with
  | 0 => .error .malformed
  | fuel + 1 =>
    match c.rest with
    | [] => .error .malformed
    | ch :: rest =>
      if ch = quote.char then
        if quote = .single ∧ rest.head? = some '\'' then
          (quotedText fuel quote (c.skip 2)).map fun r => ('\'' :: r.1, r.2)
        else .ok ([], c)
      else if quote = .double ∧ ch = '\\' then
        match escape c.step with
        | .ok (escaped, c) => (quotedText fuel quote c).map fun r => (escaped ++ r.1, r.2)
        | .error why => .error why
      else if endsWord (some ch) then
        match quotedGap c with
        | .ok (gap, c) => (quotedText fuel quote c).map fun r => (gap ++ r.1, r.2)
        | .error why => .error why
      else (quotedText fuel quote c.step).map fun r => (ch :: r.1, r.2)

def quotedScalar (quote : Quote) (c : Cursor) : Except Fault (List Char × Cursor) :=
  (quotedText (c.rest.length + 1) quote c.step).map fun r => (r.1, r.2.step)

end ModuleStubs.Yaml
