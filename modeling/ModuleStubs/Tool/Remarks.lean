/-! What the parsers of foreign formats say of a text that they refuse. Their words end up in
messages of the program. -/

namespace ModuleStubs

structure Remarks where
  json : String → String := fun _ => ""
  xml : String → String := fun _ => ""
  yaml : String → String := fun _ => ""

end ModuleStubs
