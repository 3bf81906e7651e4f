import ModuleStubs.Stub.Unit

/-! The text of a stub file: a line for each alias, then each function with a
return line exactly when it has a value to return. -/

namespace ModuleStubs

def AliasStub.render (a : AliasStub) : Wording :=
  "export type " ++ a.name ++ " = " ++ a.target ++ ";\n"

def returnLine : Option Wording → Wording
  | some value => "    return " ++ value ++ ";\n"
  | none => []

def FunctionStub.render (f : FunctionStub) : Wording :=
  Wording.ofString ("export " ++ if f.isAsync then "async function " else "function ") ++ f.name ++
    "(" ++ f.signature ++ "): " ++ f.returnType ++ " \x7b\n" ++ returnLine f.returnValue ++ "\x7d\n"

def StubUnit.render (u : StubUnit) : Wording :=
  u.aliases.flatMap AliasStub.render ++ u.functions.flatMap FunctionStub.render

end ModuleStubs
