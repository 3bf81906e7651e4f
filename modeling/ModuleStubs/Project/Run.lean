import ModuleStubs.Discovery.Sources
import ModuleStubs.Extraction.Definition
import ModuleStubs.Settings.Load
import ModuleStubs.Stub.Output

/-! A project: its sources are found, the module in each is read, and the stubs of all
modules are written. A source without a readable module is skipped. -/

namespace ModuleStubs

structure Project extends Host where
  settings : Settings

structure Collection where
  modules : List Definition
  skipped : List Path

namespace Project

def stage : String := "pipeline"

def box (p : Project) : Toolbox :=
  { tool := p.tool, settings := p.settings.tool, remarks := p.remarks }

def relative (p : Project) (path : Path) : Path := (p.settings.root.below? path).getD path

def loadSource (path : Path) : Run (Option Source) := do
  match (← Run.disk).readText path with
  | .ok content => pure (some ⟨path, content⟩)
  | .error (.disk .nullCharacter) => throw (.disk .nullCharacter)
  | .error why => do
    Run.act (Action.error s!"Could not read source: {why.message}" (some path))
    pure none

theorem outcome_loadSource {w : World} {path : Path} {content : String}
    (readable : w.disk.readText path = .ok content) :
    (loadSource path).outcome w = (.ok (some ⟨path, content⟩), w) := by
  rw [loadSource, Run.outcome_bind_of_ok (Run.outcome_disk w), readable]
  rfl

def moduleRoot (p : Project) (path : Path) : Action (Option (List Node)) := do
  match ← p.box.tree path with
  | .error why => do
    Action.error (why.message p.settings.tool) (some path)
    pure none
  | .ok tree => do
    let root ← findModuleRoot tree
    if root.isNone then Action.log stage .debug s!"No module definition in {path.text}"
    pure root

def extractFile (p : Project) (path : Path) : Run (Option Definition) := do
  match ← loadSource path with
  | none => pure none
  | some source =>
    Run.act do
      match ← p.moduleRoot path with
      | none => pure none
      | some root => do
        let extractor : Extractor := ⟨p.box, source⟩
        let definition ← extractor.extract root none
        Action.log stage .info s!"Found module {definition.name} in {(p.relative path).text}"
        pure (some definition)

def discover (p : Project) : Run (List Path) := do
  Run.liftExcept (sources (← Run.disk) p.settings)

def collectFrom (p : Project) : List Path → Run Collection
  | [] => pure ⟨[], []⟩
  | path :: paths => do
    match ← p.extractFile path with
    | some definition => do
      let rest ← p.collectFrom paths
      pure ⟨definition :: rest.modules, rest.skipped⟩
    | none => do
      let rest ← p.collectFrom paths
      pure ⟨rest.modules, path :: rest.skipped⟩

def collectFiles (p : Project) (paths : List Path) : Run Collection := do
  Run.act (Action.log stage .debug s!"Discovered {paths.length} Swift files")
  p.collectFrom paths

def collect (p : Project) : Run Collection := do
  p.collectFiles (← p.discover)

def output (p : Project) (directory : Option Path) : StubOutput :=
  { directory := directory.getD p.settings.outputDirectory
    extension := p.settings.extension
    templates := p.settings.templates.map fun templates => ⟨templates, p.engine⟩ }

def report : Action Unit := do
  (Diagnostic.report (← get).diagnostics).forM fun r => Action.happen (.logged r)

def run (p : Project) (directory : Option Path) : Run (Collection × List Path) := do
  let collection ← p.collect
  let written ← (p.output directory).generate collection.modules
  Run.act report
  pure (collection, written)

end Project

end ModuleStubs
