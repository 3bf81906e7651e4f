import ModuleStubs.Definition
import ModuleStubs.SortedSet
import ModuleStubs.Stub.Type
import ModuleStubs.Text.Digit
import ModuleStubs.Text.Split

/-! What is generated for one module: an alias for every type it refers to, and a
function stub for every function. -/

namespace ModuleStubs

structure AliasStub where
  name : Wording
  target : Wording := Descriptor.permissiveType

structure ParameterStub where
  name : Wording
  type : Wording

structure FunctionStub where
  name : Wording
  parameters : List ParameterStub
  returnType : Wording
  returnValue : Option Wording
  isAsync : Bool

def ParameterStub.text (p : ParameterStub) : Wording := p.name ++ ": " ++ p.type

def FunctionStub.signature (f : FunctionStub) : Wording :=
  Text.joinWith ", " (f.parameters.map ParameterStub.text)

structure StubUnit where
  module : String
  aliases : List AliasStub
  functions : List FunctionStub

def Signature.types (s : Signature) : List Descriptor := s.parameters.map (·.type) ++ [s.result]

def Descriptor.referenced? : Descriptor → Option Wording
  | .reference name => some name
  | _ => none

/-- The names that the module's declarations refer to, each once, by code point. -/
def Definition.typesToStub (m : Definition) : List Wording :=
  SortedSet.ofTexts <|
    (m.declarations.flatMap fun d => d.signature.types).filterMap fun type =>
      type.innermost.referenced?

def isIdentifierStart (c : Char) : Bool := c.isAlpha || c = '_' || c = '$'

def isIdentifierPart (c : Char) : Bool := isIdentifierStart c || Text.isDigit c

def CodePoint.isStart : CodePoint → Bool
  | .char c => isIdentifierStart c
  | .half _ => false

def CodePoint.isPart : CodePoint → Bool
  | .char c => isIdentifierPart c
  | .half _ => false

def isIdentifier : Wording → Bool
  | [] => false
  | c :: rest => c.isStart && rest.all CodePoint.isPart

/-- One line feed at the end of a name is not looked at. -/
def passesAsIdentifier (name : Wording) : Bool :=
  isIdentifier name ||
    (name.getLast? = some (.char '\n') && isIdentifier name.dropLast)

def Definition.aliasWarning (m : Definition) (name : Wording) : Wording :=
  Wording.ofString (m.name ++ ": type '") ++ name ++
    "' is not a TypeScript identifier; the generated alias will not compile"

def Definition.aliasWarnings (m : Definition) : List Wording :=
  (m.typesToStub.filter fun name => !passesAsIdentifier name).map m.aliasWarning

def Parameter.stubName (position : Nat) (p : Parameter) : Wording :=
  match p.name with
  | some name => if name = [] then s!"arg{position}" else name
  | none => s!"arg{position}"

def parameterStubs : (position : Nat) → List Parameter →
    Except UnknownPrimitive (List ParameterStub)
  | _, [] => .ok []
  | position, p :: ps => do
    let type ← p.type.typescript
    let rest ← parameterStubs (position + 1) ps
    .ok (⟨p.stubName position, type⟩ :: rest)

def Declaration.stubName (d : Declaration) : String :=
  match d.name with
  | some name => if name = "" then "anonymous" else name
  | none => "anonymous"

def promised (isAsync : Bool) (type : Wording) : Wording :=
  if isAsync then "Promise<" ++ type ++ ">" else type

def Declaration.stub (isAsync : Bool) (d : Declaration) :
    Except UnknownPrimitive FunctionStub := do
  let returnType ← d.signature.result.typescript
  let parameters ← parameterStubs 0 d.signature.parameters
  let returnValue ← d.signature.result.stubValue
  .ok ⟨d.stubName, parameters, promised isAsync returnType, returnValue.map Wording.ofString,
    isAsync⟩

/-- Synchronous functions come before asynchronous ones. -/
def Definition.unit (m : Definition) : Except UnknownPrimitive StubUnit := do
  let functions ← m.functions.mapM (Declaration.stub false)
  let asyncFunctions ← m.asyncFunctions.mapM (Declaration.stub true)
  .ok ⟨m.name, m.typesToStub.map (⟨·, Descriptor.permissiveType⟩), functions ++ asyncFunctions⟩

end ModuleStubs
