import ModuleStubs.Yaml.Fault
import ModuleStubs.Yaml.Node

/-! Merging mappings. An entry under the merge key stands for the entries of another
mapping, or of several; the entries of the mapping itself come after them and so win.
A mapping may take its entries from a collection around it, which is known only when
that collection ends. -/

namespace ModuleStubs.Yaml

namespace Node

/-- What a merge takes from the collection with an anchor, in place of the anchor. -/
def sourceIn (anchor : List Char) (whole : Node) : Node → Node
  | .enclosing name => if name = anchor then whole else .enclosing name
  | n => n

def sourcesIn (anchor : List Char) (whole : Node) : Node → Node
  | .seq tag items => .seq tag (items.map (sourceIn anchor whole))
  | n => sourceIn anchor whole n

mutual

def withSources (anchor : List Char) (whole : Node) : Node → Node
  | .seq tag items => .seq tag (itemsWithSources anchor whole items)
  | .map tag entries => .map tag (entriesWithSources anchor whole entries)
  | n => n

def itemsWithSources (anchor : List Char) (whole : Node) : List Node → List Node
  | [] => []
  | item :: items => withSources anchor whole item :: itemsWithSources anchor whole items

def entriesWithSources (anchor : List Char) (whole : Node) :
    List (Node × Node) → List (Node × Node)
  | [] => []
  | (key, value) :: entries =>
    let value := withSources anchor whole value
    (withSources anchor whole key,
        if key.tag = .merge then sourcesIn anchor whole value else value) ::
      entriesWithSources anchor whole entries

end

/-- A collection that has ended. Where a mapping inside it merges the collection, it
merges a copy in which that merge has no entries. -/
def closed (anchor : List Char) (n : Node) : Node := withSources anchor n n

mutual

def mergedEntries : List (Node × Node) → Except Fault (List (Node × Node))
  | [] => .ok []
  | (key, value) :: entries => do
    let merged ← if key.tag = .merge then sourceEntries value else .ok []
    let rest ← mergedEntries entries
    .ok (merged ++ rest)

def sourceEntries : Node → Except Fault (List (Node × Node))
  | .map _ entries => do
    let merged ← mergedEntries entries
    .ok (merged ++ entries.filter fun entry => entry.1.tag ≠ .merge)
  | .seq _ items => sourceItems items
  | .enclosing _ => .ok []
  | .scalar _ _ => .error .malformed

def sourceItems : List Node → Except Fault (List (Node × Node))
  | [] => .ok []
  | .map _ entries :: items => do
    let merged ← mergedEntries entries
    let rest ← sourceItems items
    .ok (rest ++ (merged ++ entries.filter fun entry => entry.1.tag ≠ .merge))
  | .enclosing _ :: items => sourceItems items
  | _ => .error .malformed

end

def plainKey : Node → Node
  | .scalar .value text => .scalar .str text
  | n => n

def mappingEntries (entries : List (Node × Node)) : Except Fault (List (Node × Node)) := do
  let merged ← mergedEntries entries
  let own := entries.filter fun entry => entry.1.tag ≠ .merge
  .ok ((merged ++ own).map fun entry => (entry.1.plainKey, entry.2))

end Node

end ModuleStubs.Yaml
