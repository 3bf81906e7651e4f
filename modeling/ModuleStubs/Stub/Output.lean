import ModuleStubs.Run.World
import ModuleStubs.Stub.Template

/-! Writing stub files, one for each module. A file that cannot be written is a soft
failure; a path that never reaches the disk ends the run, and so does a text that has no bytes. -/

namespace ModuleStubs

structure StubOutput where
  directory : Path
  extension : String := "ts"
  templates : Option Templates := none

inductive WriteFault where
  | disk (why : DiskFault)
  | template (why : TemplateFault)
  | torn (why : Torn)

/-- What is noted of a fault that the run survives; the other ones end it. -/
def WriteFault.settle : WriteFault → Except Abort String
  | .disk .nullCharacter => .error (.disk .nullCharacter)
  | .disk why => .ok why.message
  | .template (.refused message) => .ok message
  | .template (.broken message) => .error (.template message)
  | .torn why => .error (.torn why)

namespace StubOutput

def stage : String := "stubs.generator"

def path (o : StubOutput) (m : Definition) : Path :=
  o.directory ++ Path.ofString (m.name ++ "." ++ o.extension)

def render (o : StubOutput) (d : Disk) (u : StubUnit) : Except TemplateFault Wording :=
  match o.templates.filter fun t => t.isThere d with
  | some t => t.render d u
  | none => .ok u.render

/-- How stubs are rendered from here on. Once the packaged template has been taken, no other is
looked for. -/
def settled (o : StubOutput) (d : Disk) : StubOutput :=
  { o with templates := o.templates.filter fun t => t.isThere d }

def prepare (m : Definition) : Action StubUnit := do
  m.aliasWarnings.forM fun text => Action.warn text none
  match m.unit with
  | .ok unit => pure unit
  | .error why => throw (.primitive why)

/-- The disk with a text at a path. A torn text leaves the file that was opened for it empty. -/
def store (p : Path) (text : Wording) (d : Disk) : Except WriteFault Unit × Disk :=
  match d.write p (text.encode.toOption.getD []) with
  | .error why => (.error (.disk why), d)
  | .ok d =>
    match text.encode with
    | .ok _ => (.ok (), d)
    | .error why => (.error (.torn why), d)

def place (o : StubOutput) (p : Path) (u : StubUnit) (d : Disk) : Except WriteFault Unit × Disk :=
  match d.makeDirectories o.directory with
  | (.error why, d) => (.error (.disk why), d)
  | (.ok _, d) =>
    match o.render d u with
    | .error why => (.error (.template why), d)
    | .ok text => store p text d

def next (o : StubOutput) (d : Disk) : StubOutput :=
  match d.makeDirectories o.directory with
  | (.error _, _) => o
  | (.ok _, d) => o.settled d

def write (o : StubOutput) (m : Definition) (unit : StubUnit) : Run Bool := do
  let target := o.path m
  let (result, d) := o.place target unit (← Run.disk)
  Run.setDisk d
  match result with
  | .ok _ => do
    Run.act (Action.log stage .info s!"Wrote stubs for {m.name} to {target.text}")
    pure true
  | .error why => do
    let text ← Run.liftExcept why.settle
    Run.act (Action.error s!"Could not write stubs for {m.name}: {text}" (some target))
    pure false

def generate (o : StubOutput) : List Definition → Run (List Path)
  | [] => pure []
  | m :: ms => do
    let unit ← Run.act (prepare m)
    let next := o.next (← Run.disk)
    let written ← o.write m unit
    let rest ← next.generate ms
    pure (if written then o.path m :: rest else rest)

end StubOutput

end ModuleStubs
