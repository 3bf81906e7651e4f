import ModuleStubs.Text.Hex
import ModuleStubs.Text.Utf8
import ModuleStubs.Yaml.Cursor
import ModuleStubs.Yaml.Token

/-! Anchors, aliases, tags and directives: the marks of YAML that are words. -/

namespace ModuleStubs.Yaml

open Text

def isWordChar (ch : Char) : Bool := ch.isAlphanum || ch = '-' || ch = '_'

def word? (c : Cursor) : Option (List Char × Cursor) :=
  let (name, c) := c.run isWordChar
  if name.isEmpty then none else some (name, c)

def anchorName? (c : Cursor) : Option (List Char × Cursor) := do
  let (name, c) ← word? c
  if endsWord c.peek || (c.peek.map "?:,]\x7d%@\x60".toList.contains).getD false then
    some (name, c)
  else none

def isUriChar (ch : Char) : Bool := ch.isAlphanum || "-;/?:@&=+$,_.!~*'()[]%".toList.contains ch

def uriBytes? (fuel : Nat) (c : Cursor) : Option (List UInt8 × Cursor) :=
  match fuel with
  | 0 => none
  | fuel + 1 =>
    match c.rest with
    | '%' :: rest =>
      let ds := rest.take 2
      if ds.length = 2 ∧ ds.all Hex.isDigit then do
        let (more, c) ← uriBytes? fuel (c.skip 3)
        some (UInt8.ofNat (Hex.number ds) :: more, c)
      else none
    | _ => some ([], c)

def uriText? (fuel : Nat) (c : Cursor) : Option (List Char × Cursor) :=
  match fuel with
  | 0 => none
  | fuel + 1 =>
    match c.rest with
    | '%' :: _ => do
      let (bytes, c) ← uriBytes? (c.rest.length + 1) c
      let decoded ← (Utf8.decode bytes).toOption
      let (more, c) ← uriText? fuel c
      some (decoded ++ more, c)
    | ch :: _ =>
      if isUriChar ch then do
        let (more, c) ← uriText? fuel c.step
        some (ch :: more, c)
      else some ([], c)
    | [] => some ([], c)

def uri? (c : Cursor) : Option (List Char × Cursor) := do
  if c.peek.map isUriChar = some true then uriText? (c.rest.length + 1) c else none

/-- A handle between exclamation marks; a single mark stands alone before a space. -/
def tagHandle? (c : Cursor) : Option (List Char × Cursor) := do
  if !c.sees '!' then none
  else if c.step.sees ' ' then some (['!'], c.step)
  else
    let (name, c) := c.step.run isWordChar
    if c.sees '!' then some ('!' :: name ++ ['!'], c.step) else none

def hasSecondMark : List Char → Bool
  | [] => false
  | ch :: rest => ch = '!' || (!(ch = ' ' || isBreak ch) && hasSecondMark rest)

def tagText? (c : Cursor) : Option (TagText × Cursor) := do
  let (text, c) ←
    if c.step.sees '<' then do
      let (suffix, c) ← uri? (c.skip 2)
      if c.sees '>' then some ((⟨none, suffix⟩ : TagText), c.step) else none
    else if endsWord c.step.peek then some (⟨none, ['!']⟩, c.step)
    else do
      let (handle, c) ←
        if hasSecondMark c.step.rest then tagHandle? c else some (['!'], c.step)
      let (suffix, c) ← uri? c
      some (⟨some handle, suffix⟩, c)
  if c.sees ' ' || endsLine c.peek then some (text, c) else none

def directiveNumber? (c : Cursor) : Option (Nat × Cursor) :=
  let (ds, c) := c.run isDigit
  if ds.isEmpty then none else some (number ds, c)

def directiveBody? (name : List Char) (c : Cursor) : Option (Token × Cursor) :=
  match String.ofList name with
  | "YAML" => do
    let (major, c) ← directiveNumber? c.skipSpaces
    if !c.sees '.' then none
    else
      let (_, c) ← directiveNumber? c.step
      if c.sees ' ' || endsLine c.peek then some (.version major, c) else none
  | "TAG" => do
    let (handle, c) ← tagHandle? c.skipSpaces
    if !c.sees ' ' then none
    else
      let (uri, c) ← uri? c.skipSpaces
      if c.sees ' ' || endsLine c.peek then some (.tagHandle handle uri, c) else none
  | _ => some (.otherDirective, c.skipWhile fun ch => !isBreak ch)

def directive? (c : Cursor) : Option (Token × Cursor) := do
  let (name, c) ← word? c.step
  if !(c.sees ' ' || endsLine c.peek) then none
  else
    let (token, c) ← directiveBody? name c
    let c := c.skipSpaces.skipComment
    if endsLine c.peek then some (token, ((c.lineBreak?).map (·.2)).getD c) else none

end ModuleStubs.Yaml
