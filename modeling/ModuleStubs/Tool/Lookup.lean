import ModuleStubs.Structure.Node
import ModuleStubs.Tool.CursorInfo
import ModuleStubs.Tool.Remarks
import ModuleStubs.Tool.Session

/-! Asking the tool for a declaration tree and for the types at one place. A failed
call is a result like any other. The work ends where the tool may not be run, where it prints
what is no text, and at a number that is too long or a declaration that is torn. -/

namespace ModuleStubs

structure Toolbox where
  tool : Tool
  settings : ToolSettings
  remarks : Remarks := {}

namespace Toolbox

def lookupStage : String := "analysis.structure_index"

def noText : String := "the JSON object must be str, bytes or bytearray, not NoneType"

def read (box : Toolbox) (command : String) : Reply → Except Abort (Except ToolFault Json)
  | .output none => .ok (.error (.notJson command noText))
  | .output (some text) =>
    match Json.read text with
    | .ok value => .ok (.ok value)
    | .error .malformed => .ok (.error (.notJson command (box.remarks.json text)))
    | .error (.number why) => .error (.numeral why)
  | .failure status output errors =>
    .ok (.error (.failed command (failureDetail status output errors)))
  | .undecodable why => .error (.decoding why)
  | .missing => .ok (.error .missing)
  | .timedOut => .ok (.error (.timedOut command))
  | .denied => .error (.disk (.refused .denied box.settings.executable))

/-- Makes a call. Only calls made before it are the tool's history. -/
def ask (box : Toolbox) (call : Call) : Action (Except ToolFault Json) := do
  Action.log lookupStage .debug s!"Running {box.settings.executable} {call.command}"
  let reply := box.tool (← get).calls call
  Action.happen (.called call)
  liftExcept (box.read call.command reply)
where
  liftExcept {α : Type} : Except Abort α → Action α
    | .ok a => pure a
    | .error why => throw why

theorem outcome_ask (box : Toolbox) (call : Call) (s : Session) :
    (box.ask call).outcome s =
      (box.read call.command (box.tool s.calls call),
        (s.add (.logged ⟨lookupStage, .debug,
          s!"Running {box.settings.executable} {call.command}"⟩)).add (.called call)) := by
  have calls : ∀ r, (s.add (.logged r)).calls = s.calls := by
    intro r
    rw [Session.calls_add]
    exact List.append_nil _
  rw [ask, Action.outcome_bind_of_ok (Action.outcome_log _ _ _ s)]
  rw [Action.outcome_bind_of_ok (Action.outcome_get _)]
  rw [Action.outcome_bind_of_ok (Action.outcome_happen _ _), calls]
  cases box.read call.command (box.tool s.calls call) <;> rfl

def tree (box : Toolbox) (path : Path) : Action (Except ToolFault Node) := do
  match ← box.ask (.tree path) with
  | .error why => pure (.error why)
  | .ok value =>
    match Node.ofJson? value with
    | some node => pure (.ok node)
    | none => pure (.error (.noTree path))

def readInfo (box : Toolbox) (path : Path) (offset : Int) (value : Json) :
    Action (Except ToolFault Signature) := do
  match value.fields? with
  | none => pure (.error (.noInfo path offset))
  | some fields =>
    if (CursorInfo.annotation? fields).isNone then
      Action.log lookupStage .debug "Cursor info carried no annotated declaration"
    match CursorInfo.signature fields with
    | .ok signature => pure (.ok signature)
    | .error (.notXml text) => pure (.error (.notXml (box.remarks.xml text)))
    | .error (.torn why) => throw (.torn why)

def request (box : Toolbox) (path : Path) (offset : Int) : Action (Except ToolFault Signature) := do
  match ← box.ask (.request path offset) with
  | .error why => pure (.error why)
  | .ok value => box.readInfo path offset value

/-- A signature once found is not asked for again, if lookups are kept. -/
def lookup (box : Toolbox) (path : Path) (offset : Int) : Action (Except ToolFault Signature) := do
  let key := (path.text, offset)
  if box.settings.cacheLookups then
    match (← get).memo.find key with
    | some signature => pure (.ok signature)
    | none =>
      let result ← box.request path offset
      match result with
      | .ok signature => modify (Session.remember key signature)
      | .error _ => pure ()
      pure result
  else box.request path offset

def resolve (box : Toolbox) (path : Path) (offset : Option Int) :
    Action (Except ToolFault Signature) :=
  match offset with
  | none => pure (.error (.noOffset path))
  | some offset => box.lookup path offset

end Toolbox

end ModuleStubs
