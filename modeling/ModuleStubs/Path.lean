import ModuleStubs.Text.Split

/-! Paths as components. Empty components and single dots say nothing and are
dropped when a path is read; a component of two dots is kept. -/

namespace ModuleStubs

/-- Where a path starts. Two leading slashes are kept apart from one. -/
inductive Anchor where
  | relative
  | root
  | doubleRoot
  deriving DecidableEq

def Anchor.text : Anchor → String
  | .relative => ""
  | .root => "/"
  | .doubleRoot => "//"

structure Path where
  anchor : Anchor
  parts : List String
  deriving DecidableEq

namespace Path

def anchorOf : List Char → Anchor
  | '/' :: '/' :: '/' :: _ => .root
  | '/' :: '/' :: _ => .doubleRoot
  | '/' :: _ => .root
  | _ => .relative

def isSilent (part : String) : Bool := part = "" || part = "."

def ofString (s : String) : Path :=
  ⟨anchorOf s.toList, (Text.pieces '/' s).filter fun part => !isSilent part⟩

def text (p : Path) : String :=
  if p.anchor = .relative ∧ p.parts = [] then "."
  else p.anchor.text ++ Text.join "/" p.parts

instance : ToString Path := ⟨text⟩

def isAbsolute (p : Path) : Bool := p.anchor ≠ .relative

def append (p q : Path) : Path :=
  if q.isAbsolute then q else ⟨p.anchor, p.parts ++ q.parts⟩

instance : Append Path := ⟨append⟩

def child (p : Path) (part : String) : Path := ⟨p.anchor, p.parts ++ [part]⟩

def parent (p : Path) : Path := ⟨p.anchor, p.parts.dropLast⟩

def name (p : Path) : String := p.parts.getLast?.getD ""

/-- A name without what follows its last dot, unless the dot begins or ends the name. -/
def stemOf (cs : List Char) : List Char :=
  let extension := cs.reverse.takeWhile (· ≠ '.')
  let stem := (cs.reverse.drop (extension.length + 1)).reverse
  if extension.isEmpty || stem.isEmpty then cs else stem

def stem (p : Path) : String := String.ofList (stemOf p.name.toList)

def below? (root p : Path) : Option Path :=
  if p.anchor = root.anchor ∧ root.parts.isPrefixOf p.parts then
    some ⟨.relative, p.parts.drop root.parts.length⟩
  else none

def components (p : Path) : List String :=
  if p.isAbsolute then p.anchor.text :: p.parts else p.parts

def le (p q : Path) : Bool := !decide (q.components < p.components)

@[simp] theorem below?_append (root : Path) (parts : List String) :
    below? root ⟨root.anchor, root.parts ++ parts⟩ = some ⟨.relative, parts⟩ := by
  simp [below?]

@[simp] theorem parent_child (p : Path) (part : String) : (p.child part).parent = p := by
  simp [parent, child]

@[simp] theorem name_child (p : Path) (part : String) : (p.child part).name = part := by
  simp [name, child]

end Path

end ModuleStubs
