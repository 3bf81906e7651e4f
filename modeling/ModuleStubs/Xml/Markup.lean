import ModuleStubs.Text.Cut
import ModuleStubs.Text.Hex
import ModuleStubs.Text.Digit
import ModuleStubs.Xml.Name

/-! The pieces of markup other than tags: references, comments, instructions,
the declaration at the top and the document type. Each reader takes the front of
the text after the piece's opening and hands back the rest; failure means that the
document is not well formed. -/

namespace ModuleStubs.Xml

open Text

def skipSpace (cs : List Char) : List Char := cs.dropWhile isSpace

def space? : List Char → Option (List Char)
  | [] => none
  | c :: rest => if isSpace c then some (skipSpace rest) else none

def charOfCode? (n : Nat) : Option Char :=
  let c := Char.ofNat n
  if c.toNat = n ∧ isDocumentChar c then some c else none

def charReference? (cs : List Char) : Option (Char × List Char) := do
  let (hex, cs) :=
    match cs with
    | 'x' :: rest => (true, rest)
    | cs => (false, cs)
  let (ds, rest) ← cutAt? [';'] cs
  if ds.isEmpty || !ds.all (if hex then Hex.isDigit else isDigit) then none
  else
    let c ← charOfCode? (if hex then Hex.number ds else number ds)
    some (c, rest)

def predefined? (name : List Char) : Option Char :=
  match String.ofList name with
  | "lt" => some '<'
  | "gt" => some '>'
  | "amp" => some '&'
  | "quot" => some '"'
  | "apos" => some '\''
  | _ => none

/-- Two hyphens inside a comment must end it. -/
def comment? (cs : List Char) : Option (List Char) := do
  let (_, rest) ← cutAt? ['-', '-'] cs
  after? ['>'] rest

def isReservedTarget (name : List Char) : Bool := name.map Char.toLower = ['x', 'm', 'l']

def instruction? (cs : List Char) : Option (List Char) := do
  let (target, rest) ← name? cs
  if isReservedTarget target then none
  else
    match after? ['?', '>'] rest with
    | some rest => some rest
    | none => do
      let rest ← space? rest
      (·.2) <$> cutAt? ['?', '>'] rest

def literal? : List Char → Option (List Char × List Char)
  | '"' :: rest => cutAt? ['"'] rest
  | '\'' :: rest => cutAt? ['\''] rest
  | _ => none

def isDeclarationChar (c : Char) : Bool :=
  c.isAlpha || isDigit c || c = '.' || c = '-' || c = '_'

def property? (cs : List Char) : Option ((List Char × List Char) × List Char) := do
  let (key, rest) ← name? cs
  let rest ← after? ['='] (skipSpace rest)
  let (value, rest) ← literal? (skipSpace rest)
  if value.all isDeclarationChar then some ((key, value), rest) else none

def properties? (fuel : Nat) (cs : List Char) :
    Option (List (List Char × List Char) × List Char) :=
  match fuel with
  | 0 => none
  | fuel + 1 =>
    match after? ['?', '>'] (skipSpace cs) with
    | some rest => some ([], rest)
    | none => do
      let rest ← space? cs
      let (p, rest) ← property? rest
      let (ps, rest) ← properties? fuel rest
      some (p :: ps, rest)

def isEncodingName (value : List Char) : Bool := (value.head?.map Char.isAlpha).getD false

def isAnswer (value : List Char) : Bool := value = "yes".toList || value = "no".toList

/-- The version comes first, then the encoding, then the word on standing alone. -/
def properProperties (ps : List (List Char × List Char)) : Bool :=
  match ps.map fun p => (String.ofList p.1, p.2) with
  | [("version", _)] => true
  | [("version", _), ("encoding", e)] => isEncodingName e
  | [("version", _), ("standalone", a)] => isAnswer a
  | [("version", _), ("encoding", e), ("standalone", a)] => isEncodingName e && isAnswer a
  | _ => false

def afterDeclaration? (cs : List Char) : Option (List Char) :=
  match (after? "<?".toList cs).bind name? with
  | some (['x', 'm', 'l'], rest) => do
    let (ps, rest) ← properties? rest.length rest
    if properProperties ps then some rest else none
  | _ => some cs

end ModuleStubs.Xml
