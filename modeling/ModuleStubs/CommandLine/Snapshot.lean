import ModuleStubs.CommandLine.Execute
import ModuleStubs.Disk.Assembly
import ModuleStubs.Json.Reader

/-! Running a command line on a snapshot: an object with the files of a disk under
`files`, the working directory under `here`, the replies of the tool under `replies`
and the time under `time`. A file is a text, a directory is null. A call is written
as its command and its place. -/

namespace ModuleStubs.CommandLine

structure Snapshot where
  disk : Disk
  tool : Tool
  time : String

namespace Snapshot

def textOf? (v : Json) : Option String := v.str?.bind fun s => s.text.toOption

def textIn (key : String) (fields : List (Wording × Json)) : String :=
  ((Json.lookup key fields).bind textOf?).getD ""

def fieldsIn (key : String) (fields : List (Wording × Json)) : List (Wording × Json) :=
  ((Json.lookup key fields).bind Json.fields?).getD []

def addEntry (d : Disk) (field : Wording × Json) : Disk :=
  let l := (d.absolute (Path.ofString field.1.shown)).parts
  match field.2 with
  | .str text => d.addFile l (text.encode.toOption.getD [])
  | _ => d.addDirectory l

def callText : Call → String
  | .tree path => "structure " ++ path.text
  | .request path offset => "request " ++ path.text ++ "@" ++ Text.Numeral.text offset

def reply (v : Json) : Reply :=
  match textOf? v with
  | some "missing" => .missing
  | some "timed out" => .timedOut
  | some "denied" => .denied
  | _ =>
    let fields := v.fields?.getD []
    match (Json.lookup "status" fields).bind Json.int? with
    | some status => .failure status (textIn "output" fields) (textIn "errors" fields)
    | none => .output ((Json.lookup "output" fields).bind textOf?)

/-- A tool that answers from a table; to any other call it answers an empty object. -/
def toolOf (replies : List (Wording × Json)) : Tool := fun _ call =>
  match Json.lookup (callText call) replies with
  | some given => reply given
  | none => .output (some "\x7b\x7d")

def read? (text : String) : Option Snapshot := do
  let fields ← (Json.read text).toOption.bind Json.fields?
  let here := Disk.lexical (Path.ofString (textIn "here" fields)).parts
  some {
    disk := (fieldsIn "files" fields).foldl addEntry ((Disk.blank here).addDirectory here)
    tool := toolOf (fieldsIn "replies" fields)
    time := textIn "time" fields }

def entryJson (entry : Location × Entry) : Wording × Json :=
  let name := (Path.mk .root entry.1).text
  match entry.2 with
  | .directory => (name, .null)
  | .file bytes => (name, .str (String.ofList (Text.Utf8.decodeLenient bytes)))

def report (before : Disk) (o : Outcome) : Json :=
  let ending : Wording × Json :=
    match o.result with
    | .ok status => ("status", .int status)
    | .error why => ("fault", .str why.message)
  .obj [ending, ("output", .str o.output), ("errors", .str o.errors),
    ("files", .obj ((Disk.changesSince before o.world.disk).map entryJson))]

def run (s : Snapshot) (texts : List String) : Outcome :=
  CommandLine.run texts { tool := s.tool } s.time s.disk

end Snapshot

def Outcome.status (o : Outcome) : Nat :=
  match o.result with
  | .ok status => status
  | .error _ => 1

end ModuleStubs.CommandLine
