import ModuleStubs.Text.Wording

/-! Descriptors of the types that Swift declarations mention. -/

namespace ModuleStubs

inductive Descriptor where
  | primitive (name : Wording)
  | array (element : Descriptor)
  | reference (name : Wording)
  | unknown
  | void
  deriving DecidableEq, Inhabited

namespace Descriptor

def unknownMarker : Wording := "unknown"

def primitiveNames : List Wording := ["String", "Bool", "Int", "Float", "Double"]

def bracketed? : Wording → Option Wording
  | .char '[' :: rest => if rest.getLast? = some (.char ']') then some rest.dropLast else none
  | _ => none

theorem length_of_bracketed? {w inner : Wording} (h : bracketed? w = some inner) :
    inner.length < w.length := by
  unfold bracketed? at h
  split at h
  · split at h
    · cases h; simp only [List.length_dropLast, List.length_cons]; omega
    · cases h
  · cases h

def plain (name : Wording) : Descriptor :=
  if name = [] then .void
  else if name ∈ primitiveNames then .primitive name
  else if name = unknownMarker then .unknown
  else .reference name

def ofWording (name : Wording) : Descriptor :=
  match _h : bracketed? name with
  | some inner => .array (ofWording inner)
  | none => plain name
termination_by name.length
decreasing_by exact length_of_bracketed? _h

/-- Each pair of enclosing brackets is one array layer; no name at all is no type. -/
def ofName (name : Option Wording) : Descriptor :=
  match name with
  | some name => ofWording name
  | none => .void

def isArrayName (name : Wording) : Bool := (bracketed? name).isSome

def elementName (name : Wording) : Wording := (bracketed? name).getD name

/-- The name of a type as declared; an array of nothing is spelled with `None` inside. -/
def spelling : Descriptor → Option Wording
  | .primitive name => some name
  | .array element => some (.char '[' :: element.spelling.getD "None" ++ [.char ']'])
  | .reference name => some name
  | .unknown => some unknownMarker
  | .void => none

def innermost : Descriptor → Descriptor
  | .array element => element.innermost
  | d => d

theorem ofWording_of_bracketed {name inner : Wording} (h : bracketed? name = some inner) :
    ofWording name = .array (ofWording inner) := by
  rw [ofWording]
  split
  · next found hf => rw [h] at hf; cases hf; rfl
  · next hf => rw [h] at hf; cases hf

theorem ofWording_of_plain {name : Wording} (h : bracketed? name = none) :
    ofWording name = plain name := by
  rw [ofWording]
  split
  · next hf => rw [h] at hf; cases hf
  · rfl

theorem ofName_unknownMarker : ofName (some unknownMarker) = .unknown := by
  rw [ofName, ofWording_of_plain rfl]
  rfl

end Descriptor

end ModuleStubs
