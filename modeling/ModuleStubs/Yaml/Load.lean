import ModuleStubs.Yaml.Document
import ModuleStubs.Yaml.Scalar

/-! From a document to its value. Collections take their items only after they
themselves are known, level by level, so that a fault in an outer collection counts
before one in an inner collection. -/

namespace ModuleStubs.Yaml

def Tag.isCollection : Tag → Bool
  | .omap => true
  | .pairs => true
  | .set => true
  | .seq => true
  | .map => true
  | _ => false

namespace Node

variable (limit : Text.Numeral.Limit)

/-- The text of a node where a scalar is asked for: of a mapping, that of its entry
under the key that stands for the whole value. -/
def scalarText? : (fuel : Nat) → Node → Option (List Char)
  | _, .scalar _ text => some text
  | fuel + 1, .map _ entries => do
    let entry ← entries.find? fun entry => entry.1.tag = .value
    scalarText? fuel entry.2
  | _, _ => none

def simple (n : Node) : Except Fault (Option Value) :=
  match n with
  | .enclosing _ => .ok (some .enclosing)
  | n =>
    if n.tag.isCollection then .ok none
    else
      match n.scalarText? n.depth with
      | some text => (Scalar.value limit n.tag text).map some
      | none => .error .malformed

def checkKey (n : Node) : Except Fault Unit := do
  match ← n.simple limit with
  | none => .error .malformed
  | some .enclosing => .error .malformed
  | some _ => .ok ()

def checkItem (n : Node) : Except Fault (List Node) := do
  match ← n.simple limit with
  | none => .ok [n]
  | some _ => .ok []

def checkEntry (entry : Node × Node) : Except Fault (List Node) := do
  checkKey limit entry.1
  checkItem limit entry.2

def checkPair : Node → Except Fault (List Node)
  | .map _ [(key, value)] => do
    let inKey ← checkItem limit key
    let inValue ← checkItem limit value
    .ok (inKey ++ inValue)
  | _ => .error .malformed

/-- The collections inside a collection whose other items all have values. -/
def inner (n : Node) : Except Fault (List Node) :=
  match n.tag, n with
  | .seq, .seq _ items => (items.mapM (checkItem limit)).map List.flatten
  | .map, .map _ entries => do
    let entries ← mappingEntries entries
    (entries.mapM (checkEntry limit)).map List.flatten
  | .set, .map _ entries => do
    let entries ← mappingEntries entries
    (entries.mapM (checkEntry limit)).map List.flatten
  | .omap, .seq _ items => (items.mapM (checkPair limit)).map List.flatten
  | .pairs, .seq _ items => (items.mapM (checkPair limit)).map List.flatten
  | _, _ => .error .malformed

def settle (fuel : Nat) (level : List Node) : Except Fault Unit :=
  match fuel with
  | 0 => .ok ()
  | fuel + 1 => do
    let levels ← level.mapM (inner limit)
    settle fuel levels.flatten

def pairOf : Node → List (Node × Node)
  | .map _ entries => entries
  | _ => []

def value (fuel : Nat) (n : Node) : Except Fault Value :=
  match fuel with
  | 0 => .error .malformed
  | fuel + 1 => do
    match ← n.simple limit with
    | some v => .ok v
    | none =>
      let entry (e : Node × Node) : Except Fault (Value × Value) := do
        .ok (← value fuel e.1, ← value fuel e.2)
      match n.tag, n with
      | .seq, .seq _ items => (items.mapM (value fuel)).map .seq
      | .map, .map _ entries => ((← mappingEntries entries).mapM entry).map .map
      | .set, .map _ entries =>
        ((← mappingEntries entries).mapM entry).map fun es => .set (es.map (·.1))
      | .omap, .seq _ items => ((items.flatMap pairOf).mapM entry).map .pairs
      | .pairs, .seq _ items => ((items.flatMap pairOf).mapM entry).map .pairs
      | _, _ => .error .malformed

def load (n : Node) : Except Fault Value := do
  let top ← checkItem limit n
  settle limit (n.depth + 1) top
  n.value limit (n.depth + 1)

end Node

def loadChars (limit : Text.Numeral.Limit) (cs : List Char) : Except Fault Value := do
  if !cs.all isTextChar then .error .malformed
  else
    match ← document (tokens cs) with
    | some n => n.load limit
    | none => .ok .null

def load (limit : Text.Numeral.Limit) (s : String) : Except Fault Value :=
  loadChars limit s.toList

end ModuleStubs.Yaml
