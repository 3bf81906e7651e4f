import ModuleStubs.Yaml.Merge
import ModuleStubs.Yaml.Node

/-! Reading a node from tokens: block collections end where their indentation does,
bracketed ones at their bracket. -/

namespace ModuleStubs.Yaml

/-- Reading nodes from tokens: what is left, and the anchors met so far. An anchor
without node belongs to a collection that is still open. -/
structure Composer where
  tokens : List Token
  anchors : List (List Char × Option Node)

namespace Composer

def drop (r : Composer) : Composer := { r with tokens := r.tokens.drop 1 }

def sees (r : Composer) (p : Token → Bool) : Bool := (r.tokens.head?.map p).getD false

def refuse (r : Composer) : Fault :=
  match r.tokens with
  | .broken why :: _ => why
  | _ => .malformed

def expect (p : Token → Bool) (r : Composer) : Except Fault Composer :=
  if r.sees p then .ok r.drop else .error r.refuse

def reserve (anchor : Option (List Char)) (r : Composer) : Except Fault Composer :=
  match anchor with
  | none => .ok r
  | some name =>
    if (r.anchors.lookup name).isSome then .error r.refuse
    else .ok { r with anchors := (name, none) :: r.anchors }

def keep (name : List Char) (node : Node) (r : Composer) : Composer :=
  { r with anchors := (name, some node) :: r.anchors }

structure Properties where
  anchor : Option (List Char)
  tag : NodeTag

def tagged (handles : Handles) (t : TagText) (why : Fault) : Except Fault NodeTag :=
  match NodeTag.ofText? handles t with
  | some tag => .ok tag
  | none => .error why

def properties (handles : Handles) (r : Composer) : Except Fault (Properties × Composer) :=
  match r.tokens with
  | .anchor name :: .tag t :: rest =>
    (tagged handles t .malformed).map fun tag => (⟨some name, tag⟩, { r with tokens := rest })
  | .anchor name :: rest => .ok (⟨some name, .absent⟩, { r with tokens := rest })
  | .tag t :: .anchor name :: rest =>
    (tagged handles t .malformed).map fun tag => (⟨some name, tag⟩, { r with tokens := rest })
  | .tag t :: rest =>
    (tagged handles t r.drop.refuse).map fun tag => (⟨none, tag⟩, { r with tokens := rest })
  | _ => .ok (⟨none, .absent⟩, r)

def Properties.isEmpty (p : Properties) : Bool :=
  match p.anchor, p.tag with
  | none, .absent => true
  | _, _ => false

def aliased (name : List Char) (r : Composer) : Except Fault (Node × Composer) :=
  match r.anchors.lookup name with
  | some (some node) => .ok (node, r)
  | some none => .ok (.enclosing name, r)
  | none => .error .malformed

def empty : Node := .scalar .null []

def isBlockEntry : Token → Bool
  | .blockEntry => true
  | _ => false

def isBlockEnd : Token → Bool
  | .blockEnd => true
  | _ => false

def isKey : Token → Bool
  | .key => true
  | _ => false

def isValue : Token → Bool
  | .value => true
  | _ => false

def isFlowEntry : Token → Bool
  | .flowEntry => true
  | _ => false

def isFlowSequenceEnd : Token → Bool
  | .flowSequenceEnd => true
  | _ => false

def isFlowMappingEnd : Token → Bool
  | .flowMappingEnd => true
  | _ => false

def endsBlockValue (t : Token) : Bool := isKey t || isValue t || isBlockEnd t

def endsBlockItem (t : Token) : Bool := isBlockEntry t || isBlockEnd t

def endsIndentless (t : Token) : Bool := isBlockEntry t || endsBlockValue t

def endsFlowItem (t : Token) : Bool := isFlowEntry t || isFlowSequenceEnd t

def endsFlowValue (t : Token) : Bool := isFlowEntry t || isFlowMappingEnd t

/-- Where a node may stand: inside brackets, in a block, or as a value in a block
mapping, where a sequence need not be indented. -/
inductive Position where
  | flow
  | block
  | blockValue

def Position.isBlock : Position → Bool
  | .flow => false
  | _ => true

def Position.isBlockValue : Position → Bool
  | .blockValue => true
  | _ => false

mutual

def node (fuel : Nat) (handles : Handles) (position : Position) (r : Composer) :
    Except Fault (Node × Composer) :=
  match fuel with
  | 0 => .error .malformed
  | fuel + 1 =>
    match r.tokens with
    | .alias name :: rest => aliased name { r with tokens := rest }
    | _ => do
      let (p, r) ← properties handles r
      let r ← r.reserve p.anchor
      let (node, r) ← content fuel handles position p r
      match p.anchor with
      | none => .ok (node, r)
      | some name =>
        let node := node.closed name
        .ok (node, r.keep name node)

def content (fuel : Nat) (handles : Handles) (position : Position) (p : Properties)
    (r : Composer) : Except Fault (Node × Composer) :=
  match fuel with
  | 0 => .error .malformed
  | fuel + 1 =>
    match r.tokens with
    | .scalar text plain :: _ => .ok (.scalar (p.tag.ofScalar plain text) text, r.drop)
    | .flowSequenceStart :: _ => do
      let (items, r) ← flowItems fuel handles true r.drop
      .ok (.seq (p.tag.orElse .seq) items, r)
    | .flowMappingStart :: _ => do
      let (entries, r) ← flowEntries fuel handles true r.drop
      .ok (.map (p.tag.orElse .map) entries, r)
    | .blockEntry :: _ =>
      if position.isBlockValue then do
        let (items, r) ← indentlessItems fuel handles r
        .ok (.seq (p.tag.orElse .seq) items, r)
      else absentContent p r
    | .blockSequenceStart :: _ =>
      if position.isBlock then do
        let (items, r) ← blockItems fuel handles r.drop
        .ok (.seq (p.tag.orElse .seq) items, r)
      else absentContent p r
    | .blockMappingStart :: _ =>
      if position.isBlock then do
        let (entries, r) ← blockEntries fuel handles r.drop
        .ok (.map (p.tag.orElse .map) entries, r)
      else absentContent p r
    | _ => absentContent p r

def absentContent (p : Properties) (r : Composer) : Except Fault (Node × Composer) :=
  if p.isEmpty then .error r.refuse else .ok (.scalar (p.tag.ofScalar true []) [], r)

def blockItems (fuel : Nat) (handles : Handles) (r : Composer) :
    Except Fault (List Node × Composer) :=
  match fuel with
  | 0 => .error .malformed
  | fuel + 1 =>
    if r.sees isBlockEntry then do
      let (item, r) ← itemUnless fuel handles .block endsBlockItem r.drop
      let (items, r) ← blockItems fuel handles r
      .ok (item :: items, r)
    else do
      let r ← r.expect isBlockEnd
      .ok ([], r)

def indentlessItems (fuel : Nat) (handles : Handles) (r : Composer) :
    Except Fault (List Node × Composer) :=
  match fuel with
  | 0 => .error .malformed
  | fuel + 1 =>
    if r.sees isBlockEntry then do
      let (item, r) ← itemUnless fuel handles .block endsIndentless r.drop
      let (items, r) ← indentlessItems fuel handles r
      .ok (item :: items, r)
    else .ok ([], r)

def itemUnless (fuel : Nat) (handles : Handles) (position : Position) (ends : Token → Bool)
    (r : Composer) : Except Fault (Node × Composer) :=
  match fuel with
  | 0 => .error .malformed
  | fuel + 1 => if r.sees ends then .ok (empty, r) else node fuel handles position r

def valueOrEmpty (fuel : Nat) (handles : Handles) (position : Position) (ends : Token → Bool)
    (r : Composer) : Except Fault (Node × Composer) :=
  match fuel with
  | 0 => .error .malformed
  | fuel + 1 =>
    if r.sees isValue then itemUnless fuel handles position ends r.drop else .ok (empty, r)

def blockEntries (fuel : Nat) (handles : Handles) (r : Composer) :
    Except Fault (List (Node × Node) × Composer) :=
  match fuel with
  | 0 => .error .malformed
  | fuel + 1 =>
    if r.sees isKey then do
      let (key, r) ← itemUnless fuel handles .blockValue endsBlockValue r.drop
      let (value, r) ← valueOrEmpty fuel handles .blockValue endsBlockValue r
      let (entries, r) ← blockEntries fuel handles r
      .ok ((key, value) :: entries, r)
    else do
      let r ← r.expect isBlockEnd
      .ok ([], r)

/-- The items up to the closing bracket; an item with a key is a mapping of its own. -/
def flowItems (fuel : Nat) (handles : Handles) (first : Bool) (r : Composer) :
    Except Fault (List Node × Composer) :=
  match fuel with
  | 0 => .error .malformed
  | fuel + 1 =>
    if r.sees isFlowSequenceEnd then .ok ([], r.drop)
    else do
      let r ← if first then .ok r else r.expect isFlowEntry
      if r.sees isKey then
        let (key, r) ←
          itemUnless fuel handles .flow (fun t => isValue t || endsFlowItem t) r.drop
        let (value, r) ← valueOrEmpty fuel handles .flow endsFlowItem r
        let (items, r) ← flowItems fuel handles false r
        .ok (.map .map [(key, value)] :: items, r)
      else if r.sees isFlowSequenceEnd then .ok ([], r.drop)
      else
        let (item, r) ← node fuel handles .flow r
        let (items, r) ← flowItems fuel handles false r
        .ok (item :: items, r)

def flowEntries (fuel : Nat) (handles : Handles) (first : Bool) (r : Composer) :
    Except Fault (List (Node × Node) × Composer) :=
  match fuel with
  | 0 => .error .malformed
  | fuel + 1 =>
    if r.sees isFlowMappingEnd then .ok ([], r.drop)
    else do
      let r ← if first then .ok r else r.expect isFlowEntry
      if r.sees isKey then
        let (key, r) ←
          itemUnless fuel handles .flow (fun t => isValue t || endsFlowValue t) r.drop
        let (value, r) ← valueOrEmpty fuel handles .flow endsFlowValue r
        let (entries, r) ← flowEntries fuel handles false r
        .ok ((key, value) :: entries, r)
      else if r.sees isFlowMappingEnd then .ok ([], r.drop)
      else
        let (key, r) ← node fuel handles .flow r
        let (entries, r) ← flowEntries fuel handles false r
        .ok ((key, empty) :: entries, r)

end

end Composer

end ModuleStubs.Yaml
