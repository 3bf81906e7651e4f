import ModuleStubs.Json.Value

/-! The tree of declarations that the structure tool reports. A node keeps the
well-typed fields of its report and drops the rest; its shape follows from its
kind and type name. -/

namespace ModuleStubs

inductive Shape where
  | moduleDefinition
  | closure
  | parameter
  | call
  | argument
  | unrecognized
  deriving DecidableEq

def Shape.name : Shape → String
  | .moduleDefinition => "module_definition"
  | .closure => "closure"
  | .parameter => "parameter"
  | .call => "call"
  | .argument => "argument"
  | .unrecognized => "unrecognized"

structure Node where
  kind : Option Wording
  typename : Option Wording
  name : Option Wording
  offset : Option Int
  length : Option Int
  children : List Node
  deriving Inhabited

namespace Node

def moduleTypename : Wording := "ModuleDefinition"

/-- The type name of a module definition outweighs the kind. -/
def shapeOf (kind typename : Option Wording) : Shape :=
  if typename = some moduleTypename then .moduleDefinition
  else if kind = some "source.lang.swift.expr.closure" then .closure
  else if kind = some "source.lang.swift.decl.var.parameter" then .parameter
  else if kind = some "source.lang.swift.expr.call" then .call
  else if kind = some "source.lang.swift.expr.argument" then .argument
  else .unrecognized

def shape (n : Node) : Shape := shapeOf n.kind n.typename

def hasChildren (n : Node) : Bool := !n.children.isEmpty

def child? (n : Node) (index : Int) : Option Node :=
  if index < 0 then none else n.children[index.toNat]?

def textField (key : Wording) (fields : List (Wording × Json)) : Option Wording :=
  (Json.lookup key fields).bind Json.str?

def numberField (key : Wording) (fields : List (Wording × Json)) : Option Int :=
  (Json.lookup key fields).bind Json.int?

mutual

def ofJson? : Json → Option Node
  | .obj fields =>
    some {
      kind := textField "key.kind" fields
      typename := textField "key.typename" fields
      name := textField "key.name" fields
      offset := numberField "key.offset" fields
      length := numberField "key.length" fields
      children := substructure fields }
  | _ => none

def substructure : List (Wording × Json) → List Node
  | [] => []
  | (key, value) :: fields =>
    if key = "key.substructure" then ofList value else substructure fields

def ofList : Json → List Node
  | .arr items => ofItems items
  | _ => []

def ofItems : List Json → List Node
  | [] => []
  | item :: items =>
    match ofJson? item with
    | some node => node :: ofItems items
    | none => ofItems items

end

theorem ofItems_eq_filterMap (items : List Json) : ofItems items = items.filterMap ofJson? := by
  induction items with
  | nil => rfl
  | cons item items ih =>
    rw [ofItems, List.filterMap_cons]
    split <;> simp_all

end Node

end ModuleStubs
