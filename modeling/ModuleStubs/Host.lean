import ModuleStubs.Stub.Template
import ModuleStubs.Tool.Call
import ModuleStubs.Tool.Remarks

/-! What the program finds around it: the external tool, the words of foreign parsers, the engine
that lays out templates, and the home directories of users. -/

namespace ModuleStubs

structure Host where
  tool : Tool
  remarks : Remarks := {}
  engine : Engine := fun _ _ => .ok []
  /-- The home directory that a path component with a leading tilde stands for. -/
  home : String → Option String := fun _ => none

end ModuleStubs
