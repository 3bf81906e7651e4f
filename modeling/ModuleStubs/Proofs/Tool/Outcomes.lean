import Mathlib.Tactic.SplitIfs
import ModuleStubs.Tool.Lookup

/-! What calls, requests and lookups come to, and what they leave in the session. The
result of a request is read off its reply alone. -/

namespace ModuleStubs

namespace Memo

theorem find_append_toList (memo : Memo) (key other : String × Int) (found : Option Signature) :
    find other (memo ++ found.toList.map (key, ·)) =
      (memo.find other).or (if key = other then found else none) := by
  cases found with
  | none => simp
  | some signature =>
    have single : find other [(key, signature)] = if key = other then some signature else none := by
      by_cases same : key = other <;> simp [find, same]
    rw [find, List.find?_append, Option.map_or]
    exact congrArg (Option.or _) single

end Memo

namespace Toolbox

section

variable (box : Toolbox) (call : Call) (path : Path) (offset : Int) (s : Session)

@[simp] theorem calls_ask : ((box.ask call).outcome s).2.calls = s.calls ++ [call] := by
  rw [outcome_ask, Session.calls_add, Session.calls_add]
  simp [Event.call?]

@[simp] theorem diagnostics_ask :
    ((box.ask call).outcome s).2.diagnostics = s.diagnostics := by
  rw [outcome_ask, Session.diagnostics_add, Session.diagnostics_add]
  simp [Event.diagnostic?]

@[simp] theorem memo_ask : ((box.ask call).outcome s).2.memo = s.memo := by
  rw [outcome_ask, Session.memo_add, Session.memo_add]

def infoResult (value : Json) : Except Abort (Except ToolFault Signature) :=
  match value.fields? with
  | none => .ok (.error (.noInfo path offset))
  | some fields =>
    match CursorInfo.signature fields with
    | .ok signature => .ok (.ok signature)
    | .error (.notXml text) => .ok (.error (.notXml (box.remarks.xml text)))
    | .error (.torn why) => .error (.torn why)

theorem outcome_readInfo (value : Json) :
    ∃ t, (box.readInfo path offset value).outcome s = (box.infoResult path offset value, t) ∧
      t.memo = s.memo ∧ t.calls = s.calls ∧ t.diagnostics = s.diagnostics := by
  unfold readInfo infoResult
  cases value.fields? with
  | none => exact ⟨s, rfl, rfl, rfl, rfl⟩
  | some fields =>
    cases described : CursorInfo.annotation? fields with
    | some text =>
      refine ⟨s, ?_, rfl, rfl, rfl⟩
      cases found : CursorInfo.signature fields with
      | ok signature => simp [described, found]
      | error why => cases why <;> simp [described, found]
    | none =>
      refine ⟨s.add (.logged ⟨lookupStage, .debug,
        "Cursor info carried no annotated declaration"⟩), ?_, rfl, ?_, ?_⟩
      · -- Without a declaration the answer is kept as it is.
        have found : CursorInfo.signature fields = .ok ⟨[], .unknown, some fields⟩ := by
          rw [CursorInfo.signature, described]
        simp only [described, found]
        rfl
      · rw [Session.calls_add]
        exact List.append_nil _
      · rw [Session.diagnostics_add]
        exact List.append_nil _

/-- The signature that a reply gives, unless it cannot be read at all. -/
def requestResult (reply : Reply) : Except Abort (Except ToolFault Signature) :=
  match box.read "request" reply with
  | .error why => .error why
  | .ok (.error why) => .ok (.error why)
  | .ok (.ok value) => box.infoResult path offset value

theorem outcome_request :
    ∃ t, (box.request path offset).outcome s =
        (box.requestResult path offset (box.tool s.calls (.request path offset)), t) ∧
      t.memo = s.memo ∧ t.calls = s.calls ++ [.request path offset] ∧
      t.diagnostics = s.diagnostics := by
  have memo := memo_ask box (.request path offset) s
  have calls := calls_ask box (.request path offset) s
  have diagnostics := diagnostics_ask box (.request path offset) s
  have result : ((box.ask (.request path offset)).outcome s).1 =
      box.read "request" (box.tool s.calls (.request path offset)) := by
    rw [outcome_ask]
    rfl
  rw [request, Action.outcome_bind, requestResult, ← result]
  cases reached : (box.ask (.request path offset)).outcome s with
  | mk heard t =>
    rw [reached] at memo calls diagnostics
    cases heard with
    | error why => exact ⟨t, rfl, memo, calls, diagnostics⟩
    | ok said =>
      cases said with
      | error why => exact ⟨t, rfl, memo, calls, diagnostics⟩
      | ok value =>
        obtain ⟨u, done, memo', calls', diagnostics'⟩ := outcome_readInfo box path offset t value
        exact ⟨u, done, memo'.trans memo, calls'.trans calls, diagnostics'.trans diagnostics⟩

variable {box path offset s}

theorem lookup_of_not_keeps (keeps : box.settings.cacheLookups = false) :
    box.lookup path offset = box.request path offset := by
  unfold lookup
  rw [if_neg (by rw [keeps]; decide)]

theorem outcome_lookup_of_some (keeps : box.settings.cacheLookups = true)
    {signature : Signature} (found : s.memo.find (path.text, offset) = some signature) :
    (box.lookup path offset).outcome s = (.ok (.ok signature), s) := by
  unfold lookup
  rw [if_pos keeps, Action.outcome_bind_of_ok (Action.outcome_get s), found]
  rfl

theorem outcome_lookup_of_none (keeps : box.settings.cacheLookups = true)
    (missing : s.memo.find (path.text, offset) = none) :
    (box.lookup path offset).outcome s =
      match (box.request path offset).outcome s with
      | (.ok (.ok signature), t) =>
        (.ok (.ok signature), t.remember (path.text, offset) signature)
      | (other, t) => (other, t) := by
  unfold lookup
  rw [if_pos keeps, Action.outcome_bind_of_ok (Action.outcome_get s), missing]
  change (box.request path offset >>= _).outcome s = _
  rw [Action.outcome_bind]
  cases (box.request path offset).outcome s with
  | mk result t =>
    cases result with
    | error why => rfl
    | ok result =>
      cases result with
      | error why => rfl
      | ok signature => rfl

end

end Toolbox

end ModuleStubs
