import ModuleStubs.Log.Record
import ModuleStubs.Path

/-! Soft failures of a run. Each is logged when it is recorded and once more in the
report at the end. -/

namespace ModuleStubs

inductive Severity where
  | warning
  | error
  deriving DecidableEq

def Severity.name : Severity → String
  | .warning => "warning"
  | .error => "error"

def Severity.level : Severity → Level
  | .warning => .warning
  | .error => .error

structure Diagnostic where
  severity : Severity
  message : Wording
  source : Option Path := none
  deriving DecidableEq

namespace Diagnostic

def stage : String := "diagnostics"

def format (d : Diagnostic) : Wording :=
  match d.source with
  | some path => Wording.ofString (path.text ++ ": ") ++ d.message
  | none => d.message

def record (d : Diagnostic) : Record := ⟨stage, d.severity.level, d.format⟩

def messages (severity : Severity) (ds : List Diagnostic) : List Wording :=
  (ds.filter (·.severity = severity)).map (·.message)

def counted (severity : Severity) (ds : List Diagnostic) : List String :=
  match (messages severity ds).length with
  | 0 => []
  | 1 => [s!"1 {severity.name}"]
  | n => [s!"{n} {severity.name}s"]

def summary (ds : List Diagnostic) : String :=
  match counted .error ds ++ counted .warning ds with
  | [] => "no warnings or errors"
  | parts => Text.join ", " parts

def reportLine (d : Diagnostic) : Record :=
  ⟨stage, .info, Wording.ofString s!"  {d.severity.name}: " ++ d.format⟩

def report (ds : List Diagnostic) : List Record :=
  if ds.isEmpty then [⟨stage, .debug, "Run finished with no warnings or errors"⟩]
  else ⟨stage, .info, s!"Run finished with {summary ds}"⟩ :: ds.map reportLine

end Diagnostic

end ModuleStubs
