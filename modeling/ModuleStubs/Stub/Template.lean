import ModuleStubs.Disk.Access
import ModuleStubs.Stub.Render

/-! A project may lay out its stubs by a template of its own. It is looked for on the disk each
time that stubs are rendered; what an engine makes of its text is given from outside. -/

namespace ModuleStubs

inductive TemplateFault where
  /-- What a template needs cannot be had, like a file that cannot be opened. -/
  | refused (message : String)
  | broken (message : String)

abbrev Engine := String → StubUnit → Except TemplateFault Wording

structure Templates where
  directory : Path
  engine : Engine

namespace Templates

def fileName : String := "module.ts.j2"

def path (t : Templates) : Path := t.directory.child fileName

def isThere (t : Templates) (d : Disk) : Bool := (d.isFile t.path).toOption.getD false

def render (t : Templates) (d : Disk) (u : StubUnit) : Except TemplateFault Wording :=
  match d.readText t.path with
  | .ok text => t.engine text u
  | .error (.disk why) => .error (.refused why.message)
  | .error (.encoding why) => .error (.broken why.message)

end Templates

end ModuleStubs
