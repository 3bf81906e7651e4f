import ModuleStubs.Extraction.ModuleRoot
import ModuleStubs.Extraction.View
import ModuleStubs.Tool.Lookup

/-! Definitions from the nodes of a module. Drafts are settled one by one, group
after group: a draft without a name or a body leaves a warning, one whose types
are elsewhere is looked up. The view comes last. -/

namespace ModuleStubs

def offsetText : Option Int → String
  | some offset => Text.Numeral.text offset
  | none => "None"

structure Extractor where
  box : Toolbox
  source : Source

namespace Extractor

def stage : String := "analysis.extractor"

def warn (x : Extractor) (message : Wording) : Action Unit :=
  Action.warn message (some x.source.path)

/-- The signature of a declaration; unresolved where it cannot be found. -/
def settleBody (x : Extractor) (label : String) : Body → Action Signature
  | .absent => do
    x.warn s!"{label} declaration has no body to read types from"
    pure {}
  | .closure signature => pure signature
  | .shapeless offset => do
    x.warn s!"{label} at offset {offsetText offset}: {noClosureText}"
    pure .unresolved
  | .elsewhere offset => do
    match ← x.box.resolve x.source.path offset with
    | .ok signature => pure signature
    | .error why =>
      Action.error
        (s!"Type lookup for {label} at offset {offsetText offset} failed: " ++
          why.message x.box.settings) (some x.source.path)
      pure .unresolved

def settle (x : Extractor) (label : String) : List Draft → Action (List Declaration)
  | [] => pure []
  | .nameless offset :: drafts => do
    x.warn s!"{label} declaration at offset {offsetText offset} has no readable name"
    x.settle label drafts
  | .declared name body :: drafts => do
    let signature ← x.settleBody label body
    let rest ← x.settle label drafts
    pure (⟨name, signature⟩ :: rest)

def named (x : Extractor) (label : String) (root : List Node) : Action (List Declaration) :=
  x.settle label (namedDrafts x.source label root)

def unnamed (x : Extractor) (label : String) (root : List Node) : Action (List Declaration) :=
  x.settle label (unnamedDrafts label root)

def entries (x : Extractor) (label : String) : List Node → Action (List String)
  | [] => pure []
  | n :: ns => do
    match x.source.readableText? n with
    | some name => do
      let rest ← x.entries label ns
      pure (name :: rest)
    | none => do
      x.warn s!"{label} entry at offset {offsetText n.offset} has no readable name"
      x.entries label ns

def grouped (x : Extractor) (label : String) (root : List Node) : Action (List String) :=
  x.entries label (groupedNodes label root)

/-- The given name, else the default name, else the name of the file. -/
def moduleName (x : Extractor) (root : List Node) (defaultName : Option String) :
    Action String := do
  match (givenName? x.source root).or (defaultName.filter (· ≠ "")) with
  | some name => pure name
  | none => do
    let fallback := x.source.path.stem
    x.warn s!"Module definition has no Name; using '{fallback}'"
    pure fallback

end Extractor

/-- The parameters of a property of a view: the first one is the view itself. -/
def withoutView (ps : List Parameter) : List Parameter :=
  ps.tail.filter fun p => p.name ≠ some (Wording.ofString "view")

def Signature.withoutView (s : Signature) : Signature :=
  { s with parameters := ModuleStubs.withoutView s.parameters }

def Declaration.withoutView (d : Declaration) : Declaration :=
  { d with signature := d.signature.withoutView }

namespace Extractor

def surface (x : Extractor) (root : List Node) (defaultName : Option String) :
    Action Definition := do
  Action.log stage .debug s!"Extracting module definition from {x.source.path.text}"
  let name ← x.moduleName root defaultName
  let functions ← x.named Label.function root
  let asyncFunctions ← x.named Label.asyncFunction root
  let events ← x.grouped Label.events root
  let properties ← x.named Label.property root
  let props ← x.named Label.prop root
  let onCreate ← x.unnamed Label.onCreate root
  pure {
    name := name
    functions := functions
    asyncFunctions := asyncFunctions
    events := events
    properties := properties
    props := props.map Declaration.withoutView
    onCreate := onCreate }

mutual

/-- A module with its view. All views of the chain are read, of which the first is kept. -/
def chained (x : Extractor) (root : List Node) (defaultName : Option String) (chain : ViewChain) :
    Action Definition := do
  let definition ← x.surface root defaultName
  let view ← x.viewOf chain
  pure { definition with view := view }

def viewOf (x : Extractor) : ViewChain → Action (Option Definition)
  | .none => pure none
  | .broken why => do
    x.warn s!"Could not parse view definition: {why.message}"
    pure none
  | .nested root name more => do
    let nested ← x.chained root name more
    pure (some { nested with view := none })

end

def extract (x : Extractor) (root : List Node) (defaultName : Option String) :
    Action Definition :=
  x.chained root defaultName (ViewChain.ofRoot x.source root)

def view (x : Extractor) (root : List Node) : Action (Option Definition) :=
  x.viewOf (ViewChain.ofRoot x.source root)

end Extractor

def findModuleRoot (tree : Node) : Action (Option (List Node)) := do
  let search := tree.searchRoot
  (List.replicate search.malformed malformedText).forM fun text => Action.warn text none
  pure search.root

end ModuleStubs
