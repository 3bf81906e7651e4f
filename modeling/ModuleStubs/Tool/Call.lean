import ModuleStubs.Json.Reader
import ModuleStubs.Path
import ModuleStubs.Tool.Settings

/-! Calls of the external tool and what may come of them. A tool answers each call
in view of the calls before it. -/

namespace ModuleStubs

inductive Call where
  | tree (path : Path)
  /-- What is declared at a place of a file. -/
  | request (path : Path) (offset : Int)
  deriving DecidableEq

def Call.command : Call → String
  | .tree _ => "structure"
  | .request _ _ => "request"

def Call.path : Call → Path
  | .tree path => path
  | .request path _ => path

inductive Reply where
  /-- What the tool has printed, if it was caught. -/
  | output (text : Option String)
  | failure (status : Int) (output errors : String)
  /-- Something was printed that is no text. -/
  | undecodable (why : Text.Utf8.Broken)
  | missing
  | timedOut
  | denied

abbrev Tool := List Call → Call → Reply

def Tool.Stateless (tool : Tool) : Prop := ∀ before other call, tool before call = tool other call

inductive ToolFault where
  | missing
  | timedOut (command : String)
  | failed (command : String) (detail : String)
  | notJson (command detail : String)
  | noTree (path : Path)
  | noInfo (path : Path) (offset : Int)
  | noOffset (path : Path)
  | notXml (detail : String)

namespace ToolFault

def message (settings : ToolSettings) : ToolFault → String
  | .missing => s!"Unable to locate sourcekitten executable '{settings.executable}'."
  | .timedOut command =>
    s!"{settings.executable} {command} timed out after {settings.timeoutText}s"
  | .failed command detail => s!"{settings.executable} {command} failed: {detail}"
  | .notJson command detail =>
    s!"{settings.executable} {command} returned invalid JSON: {detail}"
  | .noTree path => s!"structure output for {path.text} is not a JSON object"
  | .noInfo path offset =>
    s!"cursor info for {path.text}@{Text.Numeral.text offset} is not a JSON object"
  | .noOffset path => s!"cannot resolve type without an offset in {path.text}"
  | .notXml detail => s!"annotated declaration is not valid XML: {detail}"

end ToolFault

/-- What is known of a failed call: its error output, else its output, else its status. -/
def failureDetail (status : Int) (output errors : String) : String :=
  if Text.isBlankText errors then
    if Text.isBlankText output then s!"exit status {Text.Numeral.text status}" else Text.trim output
  else Text.trim errors

end ModuleStubs
