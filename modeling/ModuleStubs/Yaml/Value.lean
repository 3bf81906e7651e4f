import ModuleStubs.Yaml.Moment

/-! Values of YAML documents. Mappings keep their entries in order; of equal keys
the last one counts. -/

namespace ModuleStubs.Yaml

inductive Value where
  | null
  | bool (b : Bool)
  | int (n : Int)
  | float (x : Float)
  | str (s : String)
  | bytes (data : List UInt8)
  | moment (m : Moment)
  | seq (items : List Value)
  | map (entries : List (Value × Value))
  | set (members : List Value)
  /-- Ordered entries that are no mapping. -/
  | pairs (entries : List (Value × Value))
  /-- A collection inside itself. -/
  | enclosing
  deriving Inhabited

namespace Value

def hasKey (key : String) : Value → Bool
  | .str s => s = key
  | _ => false

def lookup (key : String) (entries : List (Value × Value)) : Option Value :=
  (entries.reverse.find? fun entry => entry.1.hasKey key).map (·.2)

def entries? : Value → Option (List (Value × Value))
  | .map entries => some entries
  | _ => none

end Value

end ModuleStubs.Yaml
