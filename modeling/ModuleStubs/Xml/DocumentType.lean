import ModuleStubs.Xml.Markup

/-! The document type. Of its declarations only those of general entities matter:
the first declaration of a name counts, and none counts after a reference to a
parameter entity. -/

namespace ModuleStubs.Xml

open Text

inductive Entity where
  | internal (replacement : List Char)
  | external

structure Entities where
  named : List (List Char × Entity)
  /-- Whether further declarations may stand outside the document. -/
  openEnded : Bool

def Entities.none : Entities := ⟨[], false⟩

def Entities.find? (e : Entities) (name : List Char) : Option Entity := e.named.lookup name

/-- Character references in a replacement text are resolved at its declaration. -/
def replacement? (fuel : Nat) (cs : List Char) : Option (List Char) :=
  match fuel, cs with
  | 0, _ => none
  | _, [] => some []
  | fuel + 1, '&' :: '#' :: rest => do
    let (c, rest) ← charReference? rest
    (c :: ·) <$> replacement? fuel rest
  | fuel + 1, '&' :: rest => do
    let (name, rest) ← name? rest
    let rest ← after? [';'] rest
    let more ← replacement? fuel rest
    some ('&' :: name ++ ';' :: more)
  | fuel + 1, c :: rest => if c = '%' then none else (c :: ·) <$> replacement? fuel rest

def isPublicIdChar (c : Char) : Bool :=
  c.isAlpha || isDigit c || " \r\n-'()+,./:=?;!*#@$_%".toList.contains c

def externalId? (cs : List Char) : Option (List Char) :=
  match after? "SYSTEM".toList cs with
  | some rest => do (·.2) <$> literal? (← space? rest)
  | none => do
    let rest ← after? "PUBLIC".toList cs
    let (id, rest) ← literal? (← space? rest)
    if id.all isPublicIdChar then (·.2) <$> literal? (← space? rest) else none

def declarationEnd? (fuel : Nat) (cs : List Char) : Option (List Char) :=
  match fuel, cs with
  | 0, _ => none
  | _, [] => none
  | _, '>' :: rest => some rest
  | fuel + 1, c :: rest =>
    if c = '"' ∨ c = '\'' then do declarationEnd? fuel (← literal? (c :: rest)).2
    else if c = '<' ∨ c = '&' ∨ c = '[' ∨ c = ']' then none
    else declarationEnd? fuel rest

def addEntity (ignored : Bool) (name : List Char) (value : Entity) (e : Entities) : Entities :=
  if ignored || (e.find? name).isSome then e else { e with named := e.named ++ [(name, value)] }

def entity? (ignored : Bool) (e : Entities) (cs : List Char) : Option (Entities × List Char) := do
  let rest ← space? cs
  match rest with
  | '%' :: rest => do
    let (_, rest) ← name? (← space? rest)
    let rest ← space? rest
    let rest ← ((·.2) <$> literal? rest).or (externalId? rest)
    let rest ← after? ['>'] (skipSpace rest)
    some (e, rest)
  | rest => do
    let (name, rest) ← name? rest
    let rest ← space? rest
    match literal? rest with
    | some (value, rest) => do
      let value ← replacement? (value.length + 1) value
      let rest ← after? ['>'] (skipSpace rest)
      some (addEntity ignored name (.internal value) e, rest)
    | none => do
      let rest ← externalId? rest
      let rest ← declarationEnd? rest.length rest
      some (addEntity ignored name .external e, rest)

def subset? (fuel : Nat) (e : Entities) (cs : List Char) : Option (Entities × List Char) :=
  match fuel with
  | 0 => none
  | fuel + 1 =>
    match skipSpace cs with
    | ']' :: rest => some (e, rest)
    | '%' :: rest => do
      let (_, rest) ← name? rest
      subset? fuel { e with openEnded := true } (← after? [';'] rest)
    | '<' :: '?' :: rest => do subset? fuel e (← instruction? rest)
    | '<' :: '!' :: '-' :: '-' :: rest => do subset? fuel e (← comment? rest)
    | '<' :: '!' :: rest =>
      match after? "ENTITY".toList rest with
      | some rest => do
        let (e, rest) ← entity? e.openEnded e rest
        subset? fuel e rest
      | none => do
        let keyword ← ["ELEMENT", "ATTLIST", "NOTATION"].find? fun k =>
          (after? k.toList rest).isSome
        let rest ← space? (rest.drop keyword.length)
        subset? fuel e (← declarationEnd? rest.length rest)
    | _ => none

def documentType? (cs : List Char) : Option (Entities × List Char) := do
  let (_, rest) ← qualifiedName? (← space? cs)
  let (e, rest) :=
    match (space? rest).bind externalId? with
    | some rest => (⟨[], true⟩, rest)
    | none => (Entities.none, rest)
  match skipSpace rest with
  | '>' :: rest => some (e, rest)
  | '[' :: rest => do
    let (found, rest) ← subset? (rest.length + 1) Entities.none rest
    let rest ← after? ['>'] (skipSpace rest)
    some ({ found with openEnded := found.openEnded || e.openEnded }, rest)
  | _ => none

end ModuleStubs.Xml
