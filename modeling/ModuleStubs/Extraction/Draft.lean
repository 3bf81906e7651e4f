import ModuleStubs.Definition
import ModuleStubs.Source
import ModuleStubs.Structure.Node

/-! Drafts of declarations: what a node says about a declaration before the tool is
asked. A draft has its name, if it needs one, and the place to read its types from. -/

namespace ModuleStubs

namespace Label

def name : String := "Name"
def function : String := "Function"
def asyncFunction : String := "AsyncFunction"
def events : String := "Events"
def property : String := "Property"
def prop : String := "Prop"
def onCreate : String := "OnCreate"
def view : String := "View"

end Label

def labelled (label : String) (root : List Node) : List Node :=
  root.filter fun n => n.name = some (Wording.ofString label)

def Source.readableText? (s : Source) (n : Node) : Option String :=
  (s.textAt? n.offset n.length).filter (· ≠ "")

def Node.isClosure (n : Node) : Bool := n.shape = .closure

def Node.isParameter (n : Node) : Bool := n.shape = .parameter

def Node.closure? (n : Node) : Option Node :=
  if n.isClosure then some n else n.children.find? Node.isClosure

def Node.parameter (n : Node) : Parameter := ⟨n.name, Descriptor.ofName n.typename⟩

/-- The signature that a closure spells out; the result is never spelled out. -/
def Node.closureSignature (closure : Node) : Signature :=
  { parameters := (closure.children.filter Node.isParameter).map Node.parameter
    result := .unknown }

def noClosureText : String := "expected a closure among the declaration's arguments"

inductive Body where
  | absent
  | closure (signature : Signature)
  /-- There are children, but no closure among them. -/
  | shapeless (offset : Option Int)
  /-- The tool has to be asked. -/
  | elsewhere (offset : Option Int)

def Body.ofNode? : Option Node → Body
  | none => .absent
  | some n =>
    if n.hasChildren then
      match n.closure? with
      | some found => .closure found.closureSignature
      | none => .shapeless n.offset
    else .elsewhere n.offset

inductive Draft where
  | nameless (offset : Option Int)
  | declared (name : Option String) (body : Body)

/-- A declaration with a name as its first child and its types in the second. -/
def Draft.named (s : Source) (n : Node) : Draft :=
  match (n.child? 0).bind s.readableText? with
  | some name => .declared (some name) (Body.ofNode? (n.child? 1))
  | none => .nameless n.offset

def Draft.unnamed (n : Node) : Draft := .declared none (Body.ofNode? (n.child? 0))

def namedDrafts (s : Source) (label : String) (root : List Node) : List Draft :=
  (labelled label root).map (Draft.named s)

def unnamedDrafts (label : String) (root : List Node) : List Draft :=
  (labelled label root).map Draft.unnamed

def groupedNodes (label : String) (root : List Node) : List Node :=
  (labelled label root).flatMap (·.children)

def givenName? (s : Source) (root : List Node) : Option String :=
  (labelled Label.name root).findSome? fun n => (n.child? 0).bind s.readableText?

@[simp] theorem labelled_append (label : String) (a b : List Node) :
    labelled label (a ++ b) = labelled label a ++ labelled label b := by
  simp [labelled]

end ModuleStubs
