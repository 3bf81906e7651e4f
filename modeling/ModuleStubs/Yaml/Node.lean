import ModuleStubs.Yaml.Moment
import ModuleStubs.Yaml.Tag
import ModuleStubs.Yaml.Token

/-! Nodes of a YAML document: scalars, sequences and mappings with their tags. An
alias to a finished node is that node; an alias to a collection around it stays one. -/

namespace ModuleStubs.Yaml

inductive Node where
  | scalar (tag : Tag) (text : List Char)
  | seq (tag : Tag) (items : List Node)
  | map (tag : Tag) (entries : List (Node × Node))
  /-- The collection around this place that carries the anchor. -/
  | enclosing (anchor : List Char)

namespace Node

def tag : Node → Tag
  | .scalar tag _ => tag
  | .seq tag _ => tag
  | .map tag _ => tag
  | .enclosing _ => .other

mutual

def depth : Node → Nat
  | .seq _ items => depthOfItems items + 1
  | .map _ entries => depthOfEntries entries + 1
  | _ => 0

def depthOfItems : List Node → Nat
  | [] => 0
  | item :: items => max item.depth (depthOfItems items)

def depthOfEntries : List (Node × Node) → Nat
  | [] => 0
  | (key, value) :: entries => max (max key.depth value.depth) (depthOfEntries entries)

end

end Node

def Tag.ofPlain (cs : List Char) : Tag :=
  let s := String.ofList cs
  if Form.nullWords.contains s then .null
  else if Form.truthWords.contains s then .bool
  else if Form.isFraction cs then .float
  else if Form.isWhole cs then .int
  else if s = "<<" then .merge
  else if Moment.isWritten cs then .timestamp
  else if s = "=" then .value
  else if s = "!" || s = "&" || s = "*" then .other
  else .str

abbrev Handles := List (List Char × List Char)

def standardHandles : Handles := [(['!'], ['!']), (['!', '!'], standardSpace.toList)]

inductive NodeTag where
  | absent
  | unspecific
  | named (tag : Tag)

def NodeTag.ofText? (handles : Handles) (t : TagText) : Option NodeTag := do
  let full ←
    match t.handle with
    | none => some t.suffix
    | some handle => (handles.lookup handle).map (· ++ t.suffix)
  some (if full = ['!'] then .unspecific else .named (Tag.ofUri (String.ofList full)))

def NodeTag.ofScalar (tag : NodeTag) (plain : Bool) (cs : List Char) : Tag :=
  match tag with
  | .named tag => tag
  | .unspecific => Tag.ofPlain cs
  | .absent => if plain then Tag.ofPlain cs else .str

def NodeTag.orElse (tag : NodeTag) (default : Tag) : Tag :=
  match tag with
  | .named tag => tag
  | _ => default

end ModuleStubs.Yaml
