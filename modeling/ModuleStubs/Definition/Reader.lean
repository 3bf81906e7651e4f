import ModuleStubs.Definition

/-! Reading definitions from their printed form. Values are found by their keys, and a
missing type name is no type. -/

namespace ModuleStubs

namespace Json

def isNull : Json → Bool
  | .null => true
  | _ => false

def items? : Json → Option (List Json)
  | .arr items => some items
  | _ => none

def textOrNull? : Json → Option (Option Wording)
  | .null => some none
  | .str s => some (some s)
  | _ => none

def whole? (v : Json) : Option String := v.str?.bind fun s => s.text.toOption

def wholeOrNull? : Json → Option (Option String)
  | .null => some none
  | v => v.whole?.map some

end Json

def Parameter.ofJson? (v : Json) : Option Parameter := do
  let fields ← v.fields?
  let name ← (← Json.lookup "name" fields).textOrNull?
  let typename ← (← Json.lookup "typename" fields).textOrNull?
  some ⟨name, Descriptor.ofName typename⟩

def Signature.ofJson? (v : Json) : Option Signature := do
  let fields ← v.fields?
  let parameters ← (← (← Json.lookup "parameters" fields).items?).mapM Parameter.ofJson?
  let result ← (← Json.lookup "returnType" fields).textOrNull?
  some ⟨parameters, Descriptor.ofName result, none⟩

def Declaration.ofJson? (v : Json) : Option Declaration := do
  let fields ← v.fields?
  let name ← (← Json.lookup "name" fields).wholeOrNull?
  let signature ← Signature.ofJson? (← Json.lookup "types" fields)
  some ⟨name, signature⟩

def eventOfJson? (v : Json) : Option String := do
  (← Json.lookup "name" (← v.fields?)).whole?

def listAt? {α : Type} (key : Wording) (item? : Json → Option α) (fields : List (Wording × Json)) :
    Option (List α) := do
  (← (← Json.lookup key fields).items?).mapM item?

def Definition.surface? (fields : List (Wording × Json)) : Option Definition := do
  let name ← (← Json.lookup "name" fields).whole?
  let functions ← listAt? "functions" Declaration.ofJson? fields
  let asyncFunctions ← listAt? "asyncFunctions" Declaration.ofJson? fields
  let events ← listAt? "events" eventOfJson? fields
  let properties ← listAt? "properties" Declaration.ofJson? fields
  let props ← listAt? "props" Declaration.ofJson? fields
  let onCreate ← listAt? "onCreate" Declaration.ofJson? fields
  some ⟨name, functions, asyncFunctions, events, properties, props, onCreate, none⟩

mutual

def Definition.ofJson? : Json → Option Definition
  | .obj fields => do
    let surface ← Definition.surface? fields
    let view ← viewAt? fields
    some { surface with view := view }
  | _ => none

/-- What stands under the first view key, if only that there is no view. -/
def viewAt? : List (Wording × Json) → Option (Option Definition)
  | [] => none
  | (key, value) :: fields =>
    if key = "view" then
      if value.isNull then some none else (Definition.ofJson? value).map some
    else viewAt? fields

end

end ModuleStubs
