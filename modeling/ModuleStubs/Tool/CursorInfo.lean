import ModuleStubs.Definition
import ModuleStubs.Text.Blank
import ModuleStubs.Text.Cut
import ModuleStubs.Xml.Reader

/-! The signature that the tool describes for one place of a file: an annotated
declaration in XML, whose direct children name the parameters and the result. -/

namespace ModuleStubs

namespace CursorInfo

def annotationKey : Wording := "key.fully_annotated_decl"

def isBlank : CodePoint → Bool
  | .char c => Text.isBlank c
  | .half _ => false

def annotation? (fields : List (Wording × Json)) : Option Wording :=
  ((Json.lookup annotationKey fields).bind Json.str?).filter fun text => !text.all isBlank

def elementText (element : Option Xml) : Option String :=
  (element.map fun x => Text.trim x.allText).filter (· ≠ "")

/-- The label of a parameter, or its name where the label is absent or a blank. -/
def parameterLabel (x : Xml) : Option String :=
  match elementText (x.child? "decl.var.parameter.argument_label") with
  | some label =>
    if label = "_" then elementText (x.child? "decl.var.parameter.name") else some label
  | none => elementText (x.child? "decl.var.parameter.name")

def elementType (element : Option Xml) : Descriptor :=
  Descriptor.ofName ((elementText element).map Wording.ofString)

def parameter (x : Xml) : Parameter :=
  ⟨(parameterLabel x).map Wording.ofString, elementType (x.child? "decl.var.parameter.type")⟩

/-- Only functions have parameters and a result. -/
def ofXml (x : Xml) : Signature :=
  if (Text.after? "decl.function".toList x.tag.toList).isSome then
    { parameters := (x.childrenTagged "decl.var.parameter").map parameter
      result := elementType (x.child? "decl.function.returntype") }
  else {}

inductive Fault where
  | torn (why : Torn)
  | notXml (text : String)

/-- The signature of an answer. One without a declaration is kept as it is. -/
def signature (fields : List (Wording × Json)) : Except Fault Signature :=
  match annotation? fields with
  | none => .ok ⟨[], .unknown, some fields⟩
  | some annotation =>
    match annotation.text with
    | .error why => .error (.torn why)
    | .ok text =>
      match Xml.parse? text with
      | some x => .ok (ofXml x)
      | none => .error (.notXml text)

end CursorInfo

end ModuleStubs
