/-! XML content: text and elements in the order in which they stand. -/

namespace ModuleStubs

inductive Xml where
  | text (s : String)
  | element (tag : String) (content : List Xml)

namespace Xml

mutual

-- Written out, since no instance is derived for a type that holds lists of itself.
def decEq : (a b : Xml) → Decidable (a = b)
  | .text s, .text t => decidable_of_iff (s = t) (by simp)
  | .element s a, .element t b =>
    have := decEqContent a b
    decidable_of_iff (s = t ∧ a = b) (by simp)
  | .text _, .element _ _ => isFalse nofun
  | .element _ _, .text _ => isFalse nofun

def decEqContent : (a b : List Xml) → Decidable (a = b)
  | [], [] => isTrue rfl
  | x :: a, y :: b =>
    have := decEq x y
    have := decEqContent a b
    decidable_of_iff (x = y ∧ a = b) (by simp)
  | [], _ :: _ => isFalse nofun
  | _ :: _, [] => isFalse nofun

end

instance : DecidableEq Xml := decEq

mutual

def allText : Xml → String
  | .text s => s
  | .element _ content => contentText content

def contentText : List Xml → String
  | [] => ""
  | item :: items => item.allText ++ contentText items

end

def hasTag (tag : String) : Xml → Bool
  | .text _ => false
  | .element t _ => t = tag

def tag : Xml → String
  | .text _ => ""
  | .element t _ => t

def content : Xml → List Xml
  | .text _ => []
  | .element _ content => content

def childrenTagged (tag : String) (x : Xml) : List Xml := x.content.filter (hasTag tag)

def child? (tag : String) (x : Xml) : Option Xml := x.content.find? (hasTag tag)

theorem contentText_append (a b : List Xml) :
    contentText (a ++ b) = contentText a ++ contentText b := by
  induction a with
  | nil => simp [contentText]
  | cons item items ih => simp [contentText, ih, String.append_assoc]

end Xml

end ModuleStubs
