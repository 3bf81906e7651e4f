import ModuleStubs.Stub.Unit
import ModuleStubs.Text.Cut

/-! Reading the text of a stub file, line by line. An alias is one line; a function has a
head, at most one line that returns a value, and a closing brace on a line of its own. -/

namespace ModuleStubs.StubText

open Text

def before? (ending cs : Wording) : Option Wording :=
  (after? ending.reverse cs.reverse).map List.reverse

def alias? (line : Wording) : Option AliasStub := do
  let rest ← after? (Wording.ofString "export type ") line
  let (name, rest) ← cutAt? (Wording.ofString " = ") rest
  let target ← before? ";" rest
  some ⟨name, target⟩

def parameter? (cs : Wording) : Option ParameterStub := do
  let (name, type) ← cutAt? (Wording.ofString ": ") cs
  some ⟨name, type⟩

def parameters? (cs : Wording) : Option (List ParameterStub) :=
  if cs.isEmpty then some []
  else
    match splitOn (.char ',') cs with
    | [] => none
    | first :: rest => do
      let p ← parameter? first
      let ps ← rest.mapM fun piece => (after? [.char ' '] piece).bind parameter?
      some (p :: ps)

def opening? (cs : Wording) : Option (Bool × Wording) :=
  ((after? (Wording.ofString "export function ") cs).map (false, ·)).or
    ((after? (Wording.ofString "export async function ") cs).map (true, ·))

def function? (value : Option Wording) (head : Wording) : Option FunctionStub := do
  let (isAsync, rest) ← opening? head
  let (name, rest) ← cutAt? (Wording.ofString "(") rest
  let (signature, rest) ← cutAt? (Wording.ofString "): ") rest
  let parameters ← parameters? signature
  let returnType ← before? " \x7b" rest
  some ⟨name, parameters, returnType, value, isAsync⟩

def value? (line : Wording) : Option Wording := do
  let rest ← after? (Wording.ofString "    return ") line
  before? ";" rest

def functions? : List Wording → Option (List FunctionStub)
  | [[]] => some []
  | head :: [.char '\x7d'] :: rest => do
    let f ← function? none head
    let fs ← functions? rest
    some (f :: fs)
  | head :: line :: [.char '\x7d'] :: rest => do
    let value ← value? line
    let f ← function? (some value) head
    let fs ← functions? rest
    some (f :: fs)
  | _ => none

def unit? : List Wording → Option (List AliasStub × List FunctionStub)
  | [] => none
  | line :: rest =>
    match alias? line with
    | some a => (unit? rest).map fun u => (a :: u.1, u.2)
    | none => (functions? (line :: rest)).map ([], ·)

def read (text : Wording) : Option (List AliasStub × List FunctionStub) :=
  unit? (splitOn (.char '\n') text)

end ModuleStubs.StubText
