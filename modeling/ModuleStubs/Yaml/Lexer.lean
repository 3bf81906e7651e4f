import ModuleStubs.Yaml.BlockScalar
import ModuleStubs.Yaml.Label
import ModuleStubs.Yaml.PlainScalar
import ModuleStubs.Yaml.QuotedScalar

/-! From text to tokens. Indentation opens and closes block collections. A colon can
make a key of what stands before it on its line, so the place of a possible key is
remembered on every level of brackets, and the mark of a key is put in afterwards. -/

namespace ModuleStubs.Yaml

/-- Where a key without its own mark may begin: before the token of this number. -/
structure PossibleKey where
  number : Nat
  /-- Whether only a key can stand here, by its indentation. -/
  required : Bool
  index : Nat
  line : Nat
  column : Nat

structure Lexer where
  cursor : Cursor
  tokens : List Token
  /-- The column of the innermost block collection, and of those around it. -/
  indent : Int
  outer : List Int
  /-- Whether a key without its own mark may begin here. -/
  keyAllowed : Bool
  /-- Possible keys, the innermost level of brackets first. -/
  keys : List (Option PossibleKey)

namespace Lexer

def start (cs : List Char) : Lexer := ⟨.start cs, [], -1, [], true, [none]⟩

def inFlow (l : Lexer) : Bool := 1 < l.keys.length

def push (t : Token) (l : Lexer) : Lexer := { l with tokens := t :: l.tokens }

def allowKey (allowed : Bool) (l : Lexer) : Lexer := { l with keyAllowed := allowed }

def moveTo (c : Cursor) (l : Lexer) : Lexer := { l with cursor := c }

/-- A key stays possible on its own line and for 1024 characters. -/
def isStale (c : Cursor) (key : PossibleKey) : Bool :=
  key.line ≠ c.line || 1024 < c.index - key.index

def dropStale? (c : Cursor) : List (Option PossibleKey) → Option (List (Option PossibleKey))
  | [] => some []
  | none :: keys => (none :: ·) <$> dropStale? c keys
  | some key :: keys =>
    if isStale c key then
      if key.required then none else (none :: ·) <$> dropStale? c keys
    else (some key :: ·) <$> dropStale? c keys

def dropKey? (l : Lexer) : Option Lexer :=
  match l.keys with
  | some key :: keys => if key.required then none else some { l with keys := none :: keys }
  | _ => some l

def saveKey? (l : Lexer) : Option Lexer :=
  if !l.keyAllowed then some l
  else do
    let l ← l.dropKey?
    let c := l.cursor
    let required := !l.inFlow && l.indent == c.column
    let key : PossibleKey := ⟨l.tokens.length, required, c.index, c.line, c.column⟩
    some { l with keys := some key :: l.keys.drop 1 }

def unwind (column : Int) : (outer : List Int) → Lexer → Lexer
  | [], l => { l with outer := [] }
  | around :: outer, l =>
    if column < l.indent then unwind column outer { (l.push .blockEnd) with indent := around }
    else { l with outer := around :: outer }

def unwindTo (column : Int) (l : Lexer) : Lexer :=
  if l.inFlow then l else unwind column l.outer l

def deepens (column : Nat) (l : Lexer) : Bool := l.indent < (column : Int)

def setIndent (column : Nat) (l : Lexer) : Lexer :=
  { l with indent := column, outer := l.indent :: l.outer }

def openBlock (t : Token) (l : Lexer) : Lexer :=
  if l.deepens l.cursor.column then (l.setIndent l.cursor.column).push t else l

def skipToToken (fuel : Nat) (l : Lexer) : Lexer :=
  match fuel with
  | 0 => l
  | fuel + 1 =>
    let c := l.cursor.skipSpaces.skipComment
    match c.lineBreak? with
    | none => l.moveTo c
    | some (_, c) => skipToToken fuel ((l.moveTo c).allowKey (l.keyAllowed || !l.inFlow))

def outermost? (l : Lexer) : Option Lexer := do
  let l ← (l.unwindTo (-1)).dropKey?
  some (l.allowKey false)

def documentMarker? (t : Token) (l : Lexer) : Option Lexer := do
  let l ← l.outermost?
  some ((l.moveTo (l.cursor.skip 3)).push t)

def directiveLine? (l : Lexer) : Option Lexer := do
  let l ← l.outermost?
  let (t, c) ← directive? l.cursor
  some ((l.moveTo c).push t)

def flowStart? (t : Token) (l : Lexer) : Option Lexer := do
  let l ← l.saveKey?
  some (({ l with keys := none :: l.keys, keyAllowed := true }.moveTo l.cursor.step).push t)

def flowEnd? (t : Token) (l : Lexer) : Option Lexer := do
  let l ← l.dropKey?
  if !l.inFlow then none
  else
    some (({ l with keys := l.keys.drop 1, keyAllowed := false }.moveTo l.cursor.step).push t)

def flowEntry? (l : Lexer) : Option Lexer := do
  let l ← (l.allowKey true).dropKey?
  some ((l.moveTo l.cursor.step).push .flowEntry)

def mayOpen? (t : Token) (l : Lexer) : Option Lexer :=
  if l.inFlow then some l
  else if l.keyAllowed then some (l.openBlock t)
  else none

def blockEntry? (l : Lexer) : Option Lexer := do
  let l ← l.mayOpen? .blockSequenceStart
  let l ← (l.allowKey true).dropKey?
  some ((l.moveTo l.cursor.step).push .blockEntry)

def keyMark? (l : Lexer) : Option Lexer := do
  let l ← l.mayOpen? .blockMappingStart
  let l ← (l.allowKey !l.inFlow).dropKey?
  some ((l.moveTo l.cursor.step).push .key)

/-- Puts the mark of a key, and the start of its mapping, before its first token. -/
def insertKey (key : PossibleKey) (l : Lexer) : Lexer :=
  let since := l.tokens.length - key.number
  let opens := !l.inFlow && l.deepens key.column
  let marks := if opens then [.key, .blockMappingStart] else [.key]
  let l := if opens then l.setIndent key.column else l
  { l with tokens := l.tokens.take since ++ marks ++ l.tokens.drop since }

def valueMark? (l : Lexer) : Option Lexer :=
  match l.keys with
  | some key :: keys =>
    let l := ({ l with keys := none :: keys }.insertKey key).allowKey false
    some ((l.moveTo l.cursor.step).push .value)
  | _ => do
    let l ← l.mayOpen? .blockMappingStart
    let l ← (l.allowKey !l.inFlow).dropKey?
    some ((l.moveTo l.cursor.step).push .value)

def keyPart? (read : Cursor → Option (Token × Cursor)) (l : Lexer) : Option Lexer := do
  let l ← l.saveKey?
  let (t, c) ← read l.cursor
  some (((l.allowKey false).moveTo c).push t)

def blockText? (isFolded : Bool) (l : Lexer) : Option Lexer := do
  let l ← (l.allowKey true).dropKey?
  let (text, c) ← blockScalar? isFolded l.indent l.cursor
  some ((l.moveTo c).push (.scalar text false))

def quoted (quote : Quote) (l : Lexer) : Except Fault Lexer :=
  match l.saveKey? with
  | none => .error .malformed
  | some l =>
    (quotedScalar quote l.cursor).map fun r =>
      ((l.allowKey false).moveTo r.2).push (.scalar r.1 false)

def plain? (l : Lexer) : Option Lexer := do
  let l ← l.saveKey?
  let s := plainScalar (l.cursor.rest.length + 1) l.inFlow (l.indent + 1) l.cursor
  some (((l.allowKey s.brokeLine).moveTo s.cursor).push (.scalar s.text true))

def orMalformed (l : Option Lexer) : Except Fault Lexer :=
  match l with
  | some l => .ok l
  | none => .error .malformed

def token (ch : Char) (l : Lexer) : Except Fault Lexer :=
  let c := l.cursor
  let endsWordNext := endsWord (c.peekAt 1)
  if ch = '%' ∧ c.column = 0 then orMalformed l.directiveLine?
  else if c.column = 0 ∧ c.seesMarker '-' then orMalformed (l.documentMarker? .documentStart)
  else if c.column = 0 ∧ c.seesMarker '.' then orMalformed (l.documentMarker? .documentEnd)
  else if ch = '[' then orMalformed (l.flowStart? .flowSequenceStart)
  else if ch = '\x7b' then orMalformed (l.flowStart? .flowMappingStart)
  else if ch = ']' then orMalformed (l.flowEnd? .flowSequenceEnd)
  else if ch = '\x7d' then orMalformed (l.flowEnd? .flowMappingEnd)
  else if ch = ',' then orMalformed l.flowEntry?
  else if ch = '-' ∧ endsWordNext then orMalformed l.blockEntry?
  else if ch = '?' ∧ (l.inFlow ∨ endsWordNext) then orMalformed l.keyMark?
  else if ch = ':' ∧ (l.inFlow ∨ endsWordNext) then orMalformed l.valueMark?
  else if ch = '*' then
    orMalformed (l.keyPart? fun c => (anchorName? c.step).map fun r => (.alias r.1, r.2))
  else if ch = '&' then
    orMalformed (l.keyPart? fun c => (anchorName? c.step).map fun r => (.anchor r.1, r.2))
  else if ch = '!' then
    orMalformed (l.keyPart? fun c => (tagText? c).map fun r => (.tag r.1, r.2))
  else if ch = '|' ∧ !l.inFlow then orMalformed (l.blockText? false)
  else if ch = '>' ∧ !l.inFlow then orMalformed (l.blockText? true)
  else if ch = '\'' then l.quoted .single
  else if ch = '"' then l.quoted .double
  else if startsPlain l.inFlow c then orMalformed l.plain?
  else .error .malformed

def finish (l : Lexer) : List Token :=
  match (l.unwindTo (-1)).dropKey? with
  | some l => (l.push .streamEnd).tokens.reverse
  | none => (l.push (.broken .malformed)).tokens.reverse

/-- The number of the first token that may still turn out to begin a key. -/
def settled (l : Lexer) : Nat :=
  let pending := l.keys.filterMap fun key => key.filter fun k => !isStale l.cursor k
  pending.foldl (fun n key => min n key.number) l.tokens.length

/-- The text cannot be read on. Tokens that might yet become part of a key are not
known by then. -/
def fail (why : Fault) (l : Lexer) : List Token :=
  (.broken why :: l.tokens.drop (l.tokens.length - l.settled)).reverse

def advance? (l : Lexer) : Option Lexer := do
  let l := l.skipToToken (l.cursor.rest.length + 1)
  let keys ← dropStale? l.cursor l.keys
  some (({ l with keys } : Lexer).unwindTo l.cursor.column)

def run (fuel : Nat) (l : Lexer) : List Token :=
  match fuel with
  | 0 => l.fail .malformed
  | fuel + 1 =>
    match l.advance? with
    | none => l.fail .malformed
    | some next =>
      match next.cursor.rest with
      | [] => next.finish
      | ch :: _ =>
        match next.token ch with
        | .ok next => run fuel next
        | .error why => l.fail why

end Lexer

def afterMark (c : Cursor) : Cursor := if c.sees byteOrderMark then c.step else c

def tokens (cs : List Char) : List Token :=
  let l := Lexer.start cs
  (l.moveTo (afterMark l.cursor)).run (cs.length + 1)

end ModuleStubs.Yaml
