import ModuleStubs.Text.Hex
import ModuleStubs.Text.Printable
import ModuleStubs.Text.Wording

/-! Text between quotes, as messages show a name or a path. Single quotes are
taken unless the text holds one and no double quote. -/

namespace ModuleStubs.Text.Quoted

def quoteFor (w : Wording) : Char :=
  if w.contains (.char '\'') && !w.contains (.char '"') then '"' else '\''

def escapeChar (quote c : Char) : List Char :=
  if c = quote ∨ c = '\\' then ['\\', c]
  else if c = '\t' then ['\\', 't']
  else if c = '\n' then ['\\', 'n']
  else if c = '\r' then ['\\', 'r']
  else if isPrintable c then [c]
  else if c.toNat < 0x100 then '\\' :: 'x' :: Hex.fixed .lower 2 c.toNat
  else if c.toNat < 0x10000 then '\\' :: 'u' :: Hex.fixed .lower 4 c.toNat
  else '\\' :: 'U' :: Hex.fixed .lower 8 c.toNat

def escape (quote : Char) : CodePoint → List Char
  | .char c => escapeChar quote c
  | .half n => (CodePoint.half n).shown

def encode (w : Wording) : List Char :=
  quoteFor w :: w.flatMap (escape (quoteFor w)) ++ [quoteFor w]

end ModuleStubs.Text.Quoted

namespace ModuleStubs.Text

def quoted (w : Wording) : String := String.ofList (Quoted.encode w)

end ModuleStubs.Text
