import ModuleStubs.Yaml.Fault

/-! Tokens of YAML text. -/

namespace ModuleStubs.Yaml

/-- The tag of a node as written: a handle to be looked up, if any, and the rest. -/
structure TagText where
  handle : Option (List Char)
  suffix : List Char

inductive Token where
  | version (major : Nat)
  | tagHandle (handle uri : List Char)
  | otherDirective
  | documentStart
  | documentEnd
  | blockSequenceStart
  | blockMappingStart
  | blockEnd
  | flowSequenceStart
  | flowSequenceEnd
  | flowMappingStart
  | flowMappingEnd
  | blockEntry
  | flowEntry
  | key
  | value
  | alias (name : List Char)
  | anchor (name : List Char)
  | tag (text : TagText)
  | scalar (text : List Char) (plain : Bool)
  | streamEnd
  /-- The text cannot be read on from here. -/
  | broken (why : Fault)

end ModuleStubs.Yaml
