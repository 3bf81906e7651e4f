import ModuleStubs.Descriptor
import ModuleStubs.Json.Value

/-! The surface of a native module: its functions, properties and events, and the
view it may hold. `toJson` is the form in which a definition is printed. -/

namespace ModuleStubs

structure Parameter where
  name : Option Wording
  type : Descriptor

/-- The types of a declaration. `raw` keeps a tool answer that described none. -/
structure Signature where
  parameters : List Parameter := []
  result : Descriptor := .void
  raw : Option (List (Wording × Json)) := none

def Signature.unresolved : Signature := ⟨[], .unknown, none⟩

structure Declaration where
  name : Option String
  signature : Signature

structure Definition where
  name : String
  functions : List Declaration := []
  asyncFunctions : List Declaration := []
  events : List String := []
  properties : List Declaration := []
  props : List Declaration := []
  onCreate : List Declaration := []
  view : Option Definition := none
  deriving Inhabited

/-- Every declaration with a signature, the view's not among them. -/
def Definition.declarations (m : Definition) : List Declaration :=
  m.functions ++ m.asyncFunctions ++ m.properties ++ m.props ++ m.onCreate

def textOrNull : Option Wording → Json
  | some s => .str s
  | none => .null

def Parameter.toJson (p : Parameter) : Json :=
  .obj [("name", textOrNull p.name), ("typename", textOrNull p.type.spelling)]

def Signature.toJson (s : Signature) : Json :=
  .obj [("parameters", .arr (s.parameters.map Parameter.toJson)),
    ("returnType", textOrNull s.result.spelling)]

def Declaration.toJson (d : Declaration) : Json :=
  .obj [("name", textOrNull (d.name.map Wording.ofString)), ("types", d.signature.toJson)]

def eventJson (name : String) : Json := .obj [("name", .str name)]

def Definition.toJsonWith (m : Definition) (view : Json) : Json :=
  .obj [("name", .str m.name),
    ("functions", .arr (m.functions.map Declaration.toJson)),
    ("asyncFunctions", .arr (m.asyncFunctions.map Declaration.toJson)),
    ("events", .arr (m.events.map eventJson)),
    ("properties", .arr (m.properties.map Declaration.toJson)),
    ("props", .arr (m.props.map Declaration.toJson)),
    ("onCreate", .arr (m.onCreate.map Declaration.toJson)),
    ("view", view)]

mutual

def Definition.toJson : Definition → Json
  | m@⟨_, _, _, _, _, _, _, view⟩ => m.toJsonWith (viewToJson view)

def viewToJson : Option Definition → Json
  | none => .null
  | some view => view.toJson

end

end ModuleStubs
