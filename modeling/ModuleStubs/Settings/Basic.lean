import ModuleStubs.Disk.Access
import ModuleStubs.Settings.Coercion
import ModuleStubs.Tool.Settings
import ModuleStubs.Yaml.Fault

/-! The settings of a project, and why they cannot be loaded. -/

namespace ModuleStubs

structure Settings where
  root : Path
  tool : ToolSettings := {}
  /-- Where stubs are written, seen from the root. -/
  directory : String := "mocks"
  extension : String := "ts"
  templates : Option Path := none
  includes : List String := ["**/*.swift"]
  excludes : List String := []

def Settings.outputDirectory (s : Settings) : Path := s.root ++ Path.ofString s.directory

def settingsFileName : String := ".nativestub.yml"

inductive SettingsFault where
  | noHome
  | noMapping
  | text (why : TextFault)
  /-- What the reader of YAML text says comes along. -/
  | yaml (why : Yaml.Fault) (remark : String)
  | coercion (why : CoercionFault)

def maxShownText : Nat := 200

def yamlFaultMessage (remark : String) : Yaml.Fault → String
  | .malformed => s!"Failed to parse {settingsFileName}: {remark}"
  | .numeral (.malformed base text) =>
    let shown := (Text.quoted text).toList.take maxShownText
    s!"invalid literal for int() with base {base}: {String.ofList shown}"
  | .numeral why => why.message
  | .emptyNumeral => "string index out of range"
  | .notDecimal text => s!"could not convert string to float: {Text.quoted text}"
  | .notTruthValue text => Text.quoted text
  | .notMoment => "'NoneType' object has no attribute 'groupdict'"
  | .moment why => why.message
  | .noCharacter code =>
    if code < 0x80000000 then "chr() arg not in range(0x110000)"
    else "Python int too large to convert to C int"

namespace SettingsFault

def message : SettingsFault → String
  | .noHome => "Could not determine home directory."
  | .noMapping => s!"{settingsFileName} must contain a mapping at the root"
  | .text why => why.message
  | .yaml why remark => yamlFaultMessage remark why
  | .coercion why => why.message

def isOfFile : SettingsFault → Bool
  | .noMapping => true
  | .yaml .malformed _ => true
  | _ => false

end SettingsFault

end ModuleStubs
