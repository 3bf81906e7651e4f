import ModuleStubs.CommandLine.Request
import ModuleStubs.Json.Writer
import ModuleStubs.Project.Run

/-! Running a command line. The outcome is an exit status with what was printed, or
a fault that nothing handles: one of setting up the log or of a setting's value. -/

namespace ModuleStubs.CommandLine

inductive Crash where
  | log (why : DiskFault)
  | settings (why : SettingsFault)

def Crash.message : Crash → String
  | .log why => why.message
  | .settings why => why.message

structure Outcome where
  result : Except Crash Nat
  output : String
  errors : String
  world : World

def structureText (ms : List Definition) : String :=
  Json.text (Json.indented 2) (.arr (ms.map Definition.toJson)) ++ "\n"

/-- The text that would be written; any fault of a template ends the run here. -/
def draw (o : StubOutput) (unit : StubUnit) (d : Disk) : Except Abort Wording :=
  (o.render d unit).mapError fun
    | .refused message => .template message
    | .broken message => .template message

def preview (o : StubOutput) : List Definition → Run Unit
  | [] => pure ()
  | m :: ms => do
    Run.print s!"// {(o.path m).name}\n"
    let unit ← Run.act (StubOutput.prepare m)
    let d ← Run.disk
    Run.print (← Run.liftExcept (draw o unit d))
    preview (o.settled d) ms

def dryRun (p : Project) (outputDir : Option Path) : Run Unit := do
  let collection ← p.collect
  preview (p.output outputDir) collection.modules
  Run.act Project.report

def shownPath (d : Disk) (path : Path) : Path := (Path.below? ⟨.root, d.here⟩ path).getD path

def writtenText (d : Disk) : List Path → String
  | [] => "No module definitions found\n"
  | paths =>
    String.join (paths.map fun path => "Stubs written to " ++ (shownPath d path).text ++ "\n")

def execute (name : String) (body : Run Unit) (w : World) : Outcome :=
  let (result, w) := body.outcome w
  match result with
  | .ok _ => ⟨.ok 0, w.printed, w.console, w⟩
  | .error why =>
    let text :=
      s!"{programName} {name} failed: {why.message}\n" ++ "Run with --verbose for more details.\n"
    ⟨.ok 1, w.printed, w.console ++ text, w⟩

def printDefinitions (p : Project) : Run Unit := do
  let collection ← p.collect
  Run.act Project.report
  Run.print (structureText collection.modules)

def mocksCommand (p : Project) (outputDir : Option Path) : Run Unit := do
  let (_, written) ← p.run outputDir
  Run.print (writtenText (← Run.disk) written)

def perform (r : Request) (p : Project) (w : World) : Outcome :=
  match r.command with
  | .definitions => execute "structure" (printDefinitions p) w
  | .mocks outputDir true => execute "mocks" (dryRun p outputDir) w
  | .mocks outputDir false => execute "mocks" (mocksCommand p outputDir) w

def start (r : Request) (host : Host) (w : World) : Outcome :=
  match Settings.load host w.disk r.path with
  | .ok settings => perform r ⟨host, settings⟩ w
  | .error why =>
    if why.isOfFile then ⟨.ok 1, "", why.message ++ "\n", w⟩
    else ⟨.error (.settings why), "", "", w⟩

def run (texts : List String) (host : Host) (time : String) (d : Disk) : Outcome :=
  match read texts with
  | .error (.help scope) => ⟨.ok 0, scope.help, "", { disk := d }⟩
  | .error (.misuse scope why) =>
    ⟨.ok 2, "", s!"{scope.usage}{scope.program}: error: {why.message}\n", { disk := d }⟩
  | .ok r =>
    let (result, channel, d) := Channel.configure r.verbose r.logFile d
    let w : World := { disk := d, channel := some channel, time := time }
    match result with
    | .ok _ => start r host w
    | .error why => ⟨.error (.log why), "", "", w⟩

end ModuleStubs.CommandLine
