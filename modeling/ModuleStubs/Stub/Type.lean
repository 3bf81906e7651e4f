import ModuleStubs.Descriptor
import ModuleStubs.Text.Quoted

/-! The TypeScript side of a descriptor: how its type is written and which literal
a stub returns for it. Both need the keyword of a primitive name. -/

namespace ModuleStubs

inductive Keyword where
  | string
  | boolean
  | number
  deriving DecidableEq

def Keyword.text : Keyword → String
  | .string => "string"
  | .boolean => "boolean"
  | .number => "number"

def Keyword.literal : Keyword → String
  | .string => "''"
  | .boolean => "false"
  | .number => "0"

def keyword? (name : Wording) : Option Keyword :=
  if name = "String" then some .string
  else if name = "Bool" then some .boolean
  else if name = "Int" ∨ name = "Float" ∨ name = "Double" then some .number
  else none

structure UnknownPrimitive where
  name : Wording
  deriving DecidableEq

def UnknownPrimitive.message (e : UnknownPrimitive) : String := Text.quoted e.name

def keyword (name : Wording) : Except UnknownPrimitive Keyword :=
  match keyword? name with
  | some k => .ok k
  | none => .error ⟨name⟩

namespace Descriptor

def permissiveType : String := "any"

def typescript : Descriptor → Except UnknownPrimitive Wording
  | .primitive name => (keyword name).map fun k => k.text
  | .array element => element.typescript.map fun text => text ++ "[]"
  | .reference name => .ok name
  | .unknown => .ok permissiveType
  | .void => .ok "void"

/-- The literal that a stub returns; a stub without a type returns nothing. -/
def stubValue : Descriptor → Except UnknownPrimitive (Option String)
  | .primitive name => (keyword name).map fun k => some k.literal
  | .array _ => .ok (some "[]")
  | .reference _ => .ok (some "null")
  | .unknown => .ok (some "null")
  | .void => .ok none

theorem keyword?_isSome_iff (name : Wording) :
    (keyword? name).isSome = true ↔ name ∈ primitiveNames := by
  unfold keyword? primitiveNames
  repeat' split
  all_goals simp_all

end Descriptor

end ModuleStubs
