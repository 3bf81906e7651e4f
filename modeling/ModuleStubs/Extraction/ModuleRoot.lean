import ModuleStubs.Structure.Node

/-! The search for the module definition in a tree of declarations: depth first, the
first marker with children. Markers without children are passed over and counted. -/

namespace ModuleStubs

structure RootSearch where
  root : Option (List Node)
  /-- Markers without children that were met. -/
  malformed : Nat

def Node.isMarker (n : Node) : Bool := n.shape = .moduleDefinition

mutual

def Node.searchRoot : Node → RootSearch
  | n@⟨_, _, _, _, _, children⟩ =>
    if n.isMarker then
      if children.isEmpty then ⟨none, 1⟩ else ⟨some children, 0⟩
    else searchRoots children

def searchRoots : List Node → RootSearch
  | [] => ⟨none, 0⟩
  | n :: ns =>
    let first := n.searchRoot
    match first.root with
    | some root => ⟨some root, first.malformed⟩
    | none =>
      let rest := searchRoots ns
      ⟨rest.root, first.malformed + rest.malformed⟩

end

mutual

def Node.preorder : Node → List Node
  | n@⟨_, _, _, _, _, children⟩ => n :: preorders children

def preorders : List Node → List Node
  | [] => []
  | n :: ns => n.preorder ++ preorders ns

end

def malformedText : Wording := "Found ModuleDefinition but it is malformed"

end ModuleStubs
