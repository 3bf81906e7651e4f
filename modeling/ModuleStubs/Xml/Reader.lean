import ModuleStubs.Text.Newline
import ModuleStubs.Xml.DocumentType
import ModuleStubs.Xml.Tree

/-! Reading a document into its tree. Names with a part before a colon, and all
names under a default namespace, become the namespace in braces and the local name.
Comments and instructions leave nothing behind. -/

namespace ModuleStubs.Xml

open Text

def xmlSpace : List Char := "http://www.w3.org/XML/1998/namespace".toList

def xmlnsSpace : List Char := "http://www.w3.org/2000/xmlns/".toList

/-- Namespaces in scope: the default one has no name; the innermost binding wins. -/
abbrev Scope := List (Option (List Char) × List Char)

structure Place where
  scope : Scope
  entities : Entities
  /-- Entities that are being replaced here. -/
  replacing : List (List Char)

def attributeEntity (p : Place) (name : List Char) : Option (List Char) :=
  match predefined? name with
  | some c => some [c]
  | none =>
    match p.entities.find? name with
    | some (.internal replacement) =>
      if p.replacing.contains name || replacement.contains '<' then none
      else some replacement
    | some .external => none
    | none => if p.entities.openEnded then some [] else none

/-- The value of an attribute with references resolved and blanks made spaces. -/
def attributeValue? (fuel : Nat) (p : Place) (cs : List Char) : Option (List Char) :=
  match fuel, cs with
  | 0, _ => none
  | _, [] => some []
  | fuel + 1, '&' :: '#' :: rest => do
    let (c, rest) ← charReference? rest
    (c :: ·) <$> attributeValue? fuel p rest
  | fuel + 1, '&' :: rest => do
    let (name, rest) ← name? rest
    let rest ← after? [';'] rest
    let inner ← attributeEntity p name
    let inner ←
      if (predefined? name).isSome then some inner
      else attributeValue? fuel { p with replacing := name :: p.replacing } inner
    (inner ++ ·) <$> attributeValue? fuel p rest
  | fuel + 1, c :: rest =>
    if c = '<' then none
    else ((if isSpace c then ' ' else c) :: ·) <$> attributeValue? fuel p rest

structure Attribute where
  name : QualifiedName
  value : List Char

/-- Enough steps for a text in which every entity is replaced once on each path. -/
def Place.steps (p : Place) (cs : List Char) : Nat :=
  2 * cs.length + 2 + p.entities.named.foldr (fun entity n =>
    match entity.2 with
    | .internal replacement => 2 * replacement.length + 2 + n
    | .external => n) 0

def attributes? (fuel : Nat) (p : Place) (cs : List Char) :
    Option ((List Attribute × Bool) × List Char) :=
  match fuel with
  | 0 => none
  | fuel + 1 =>
    match skipSpace cs with
    | '>' :: rest => some (([], false), rest)
    | '/' :: '>' :: rest => some (([], true), rest)
    | _ => do
      let rest ← space? cs
      let (name, rest) ← qualifiedName? rest
      let rest ← after? ['='] (skipSpace rest)
      let (raw, rest) ← literal? (skipSpace rest)
      let value ← attributeValue? (p.steps raw) p raw
      let ((more, closed), rest) ← attributes? fuel p rest
      some ((⟨name, value⟩ :: more, closed), rest)

def Attribute.binding? (a : Attribute) : Option (Option (List Char)) :=
  if a.name = ⟨none, "xmlns".toList⟩ then some none
  else if a.name.space = some "xmlns".toList then some (some a.name.base)
  else none

def mayBind (space : Option (List Char)) (uri : List Char) : Bool :=
  if uri.contains '\x7d' || space = some "xmlns".toList then false
  else if space = some "xml".toList then uri = xmlSpace
  else uri ≠ xmlSpace && uri ≠ xmlnsSpace && (space.isNone || !uri.isEmpty)

def bind? (scope : Scope) (a : Attribute) : Option Scope :=
  match a.binding? with
  | none => some scope
  | some space => if mayBind space a.value then some ((space, a.value) :: scope) else none

def bracedName (uri name : List Char) : List Char := '\x7b' :: uri ++ '\x7d' :: name

def elementName? (scope : Scope) (name : QualifiedName) : Option (List Char) :=
  match scope.lookup name.space with
  | some uri => some (if uri.isEmpty then name.base else bracedName uri name.base)
  | none => if name.space.isNone then some name.base else none

/-- The full name of an attribute: the default namespace does not reach it. -/
def Attribute.fullName? (scope : Scope) (a : Attribute) : Option (List Char) :=
  match a.name.space with
  | none => some a.name.base
  | some space => (scope.lookup (some space)).map (bracedName · a.name.base)

def allDistinct {α : Type} [BEq α] : List α → Bool
  | [] => true
  | x :: xs => !xs.contains x && allDistinct xs

def scopeInside? (scope : Scope) (as : List Attribute) : Option Scope := do
  if !allDistinct (as.map (·.name)) then none
  else
    let inner ← as.foldlM bind? scope
    let names ← (as.filter (·.binding?.isNone)).mapM (Attribute.fullName? inner)
    if allDistinct names then some inner else none

inductive Replacement where
  | char (c : Char)
  | content (cs : List Char)

def replace? (p : Place) (name : List Char) : Option Replacement :=
  match predefined? name with
  | some c => some (.char c)
  | none =>
    match p.entities.find? name with
    | some (.internal replacement) =>
      if p.replacing.contains name then none else some (.content replacement)
    | _ => none

def isPlain (c : Char) : Bool := c ≠ '<' && c ≠ '&'

def chars (cs : List Char) : Xml := .text (String.ofList cs)

mutual

def content? (fuel : Nat) (p : Place) (cs : List Char) : Option (List Xml × List Char) :=
  match fuel with
  | 0 => none
  | fuel + 1 =>
    match cs with
    | [] => some ([], [])
    | '<' :: '/' :: _ => some ([], cs)
    | '<' :: '?' :: rest => do content? fuel p (← instruction? rest)
    | '<' :: '!' :: '-' :: '-' :: rest => do content? fuel p (← comment? rest)
    | '<' :: '!' :: rest => do
      let (data, rest) ← cutAt? "]]>".toList (← after? "[CDATA[".toList rest)
      let (items, rest) ← content? fuel p rest
      some (chars data :: items, rest)
    | '<' :: rest => do
      let (item, rest) ← element? fuel p rest
      let (items, rest) ← content? fuel p rest
      some (item :: items, rest)
    | '&' :: '#' :: rest => do
      let (c, rest) ← charReference? rest
      let (items, rest) ← content? fuel p rest
      some (chars [c] :: items, rest)
    | '&' :: rest => do
      let (name, rest) ← name? rest
      let rest ← after? [';'] rest
      let inner ←
        match ← replace? p name with
        | .char c => some [chars [c]]
        | .content inner => do
          let (items, left) ← content? fuel { p with replacing := name :: p.replacing } inner
          if left.isEmpty then some items else none
      let (items, rest) ← content? fuel p rest
      some (inner ++ items, rest)
    | cs => do
      let run := cs.takeWhile isPlain
      if holds "]]>".toList run then none
      else
        let (items, rest) ← content? fuel p (cs.dropWhile isPlain)
        some (chars run :: items, rest)

def element? (fuel : Nat) (p : Place) (cs : List Char) : Option (Xml × List Char) :=
  match fuel with
  | 0 => none
  | fuel + 1 => do
    let (name, rest) ← qualifiedName? cs
    let ((as, closed), rest) ← attributes? (rest.length + 1) p rest
    let scope ← scopeInside? p.scope as
    let tag ← elementName? scope name
    if closed then some (.element (String.ofList tag) [], rest)
    else
      let (inner, rest) ← content? fuel { p with scope } rest
      let (closing, rest) ← qualifiedName? (← after? "</".toList rest)
      let rest ← after? ['>'] (skipSpace rest)
      if closing = name then some (.element (String.ofList tag) inner, rest) else none

end

def skipOutside? (fuel : Nat) (cs : List Char) : Option (List Char) :=
  match fuel with
  | 0 => none
  | fuel + 1 =>
    match skipSpace cs with
    | '<' :: '?' :: rest => do skipOutside? fuel (← instruction? rest)
    | '<' :: '!' :: '-' :: '-' :: rest => do skipOutside? fuel (← comment? rest)
    | rest => some rest

def prolog? (cs : List Char) : Option (Entities × List Char) := do
  let rest ← skipOutside? (cs.length + 1) cs
  match after? "<!DOCTYPE".toList rest with
  | some rest => do
    let (e, rest) ← documentType? rest
    let rest ← skipOutside? (rest.length + 1) rest
    some (e, rest)
  | none => some (Entities.none, rest)

def root? (e : Entities) (cs : List Char) : Option Xml := do
  let p : Place := ⟨[(some "xml".toList, xmlSpace)], e, []⟩
  let (root, rest) ← element? (p.steps cs) p (← after? ['<'] cs)
  let rest ← skipOutside? (rest.length + 1) rest
  if rest.isEmpty then some root else none

def byteOrderMark : Char := Char.ofNat 0xFEFF

def dropMark : List Char → List Char
  | c :: rest => if c = byteOrderMark then rest else c :: rest
  | [] => []

def parseChars? (cs : List Char) : Option Xml := do
  let cs := unifyNewlines (dropMark cs)
  if !cs.all isDocumentChar then none
  else
    let (e, rest) ← prolog? (← afterDeclaration? cs)
    root? e rest

def parse? (s : String) : Option Xml := parseChars? s.toList

end ModuleStubs.Xml
