import ModuleStubs.Definition
import ModuleStubs.Diagnostic
import ModuleStubs.Discovery.Glob
import ModuleStubs.Stub.Type
import ModuleStubs.Tool.Call

/-! What happens while modules are read: calls, soft failures and log records in
one order, and the lookups that are kept. An abort ends the work and leaves
everything that has happened. -/

namespace ModuleStubs

inductive Event where
  | called (call : Call)
  | noted (diagnostic : Diagnostic)
  | logged (record : Record)

namespace Event

def call? : Event → Option Call
  | .called call => some call
  | _ => none

def diagnostic? : Event → Option Diagnostic
  | .noted diagnostic => some diagnostic
  | _ => none

/-- A soft failure is logged as well. -/
def record? : Event → Option Record
  | .called _ => none
  | .noted diagnostic => some diagnostic.record
  | .logged record => some record

end Event

inductive Abort where
  | disk (why : DiskFault)
  | numeral (why : Text.Numeral.Fault)
  | primitive (why : UnknownPrimitive)
  | pattern (why : Glob.Fault)
  | decoding (why : Text.Utf8.Broken)
  | torn (why : Torn)
  | template (message : String)

def Abort.message : Abort → String
  | .disk why => why.message
  | .numeral why => why.message
  | .primitive why => why.message
  | .pattern why => why.message
  | .decoding why => why.message
  | .torn why => why.message
  | .template message => message

abbrev Memo := List ((String × Int) × Signature)

def Memo.find (key : String × Int) (memo : Memo) : Option Signature :=
  (memo.find? fun entry => entry.1 = key).map (·.2)

structure Session where
  memo : Memo := []
  trace : List Event := []

namespace Session

def calls (s : Session) : List Call := s.trace.filterMap Event.call?

def diagnostics (s : Session) : List Diagnostic := s.trace.filterMap Event.diagnostic?

def records (s : Session) : List Record := s.trace.filterMap Event.record?

def add (e : Event) (s : Session) : Session := { s with trace := s.trace ++ [e] }

def remember (key : String × Int) (signature : Signature) (s : Session) : Session :=
  { s with memo := s.memo ++ [(key, signature)] }

@[simp] theorem calls_add (e : Event) (s : Session) :
    (s.add e).calls = s.calls ++ [e].filterMap Event.call? := by
  simp [calls, add]

@[simp] theorem diagnostics_add (e : Event) (s : Session) :
    (s.add e).diagnostics = s.diagnostics ++ [e].filterMap Event.diagnostic? := by
  simp [diagnostics, add]

@[simp] theorem memo_add (e : Event) (s : Session) : (s.add e).memo = s.memo := rfl

end Session

abbrev Action := ExceptT Abort (StateM Session)

namespace Action

def happen (e : Event) : Action Unit := modify (Session.add e)

def log (stage : String) (level : Level) (message : Wording) : Action Unit :=
  happen (.logged ⟨stage, level, message⟩)

def warn (message : Wording) (source : Option Path) : Action Unit :=
  happen (.noted ⟨.warning, message, source⟩)

def error (message : Wording) (source : Option Path) : Action Unit :=
  happen (.noted ⟨.error, message, source⟩)

def outcome {α : Type} (a : Action α) (s : Session) : Except Abort α × Session := a.run.run s

section

variable {α β : Type}

@[simp] theorem outcome_pure (a : α) (s : Session) : (pure a : Action α).outcome s = (.ok a, s) :=
  rfl

@[simp] theorem outcome_throw (why : Abort) (s : Session) :
    (throw why : Action α).outcome s = (.error why, s) := rfl

@[simp] theorem outcome_get (s : Session) : (get : Action Session).outcome s = (.ok s, s) := rfl

@[simp] theorem outcome_happen (e : Event) (s : Session) :
    (happen e).outcome s = (.ok (), s.add e) := rfl

@[simp] theorem outcome_log (stage : String) (level : Level) (message : Wording) (s : Session) :
    (log stage level message).outcome s = (.ok (), s.add (.logged ⟨stage, level, message⟩)) := rfl

@[simp] theorem outcome_warn (message : Wording) (source : Option Path) (s : Session) :
    (warn message source).outcome s = (.ok (), s.add (.noted ⟨.warning, message, source⟩)) := rfl

@[simp] theorem outcome_error (message : Wording) (source : Option Path) (s : Session) :
    (error message source).outcome s = (.ok (), s.add (.noted ⟨.error, message, source⟩)) := rfl

theorem outcome_bind (a : Action α) (f : α → Action β) (s : Session) :
    (a >>= f).outcome s =
      match a.outcome s with
      | (.ok value, s) => (f value).outcome s
      | (.error why, s) => (.error why, s) := by
  change (match a.outcome s with
    | (r, s) => (ExceptT.bindCont f r).run s) = _
  rcases a.outcome s with ⟨_ | _, _⟩ <;> rfl

theorem outcome_bind_of_ok {a : Action α} {f : α → Action β} {s t : Session} {value : α}
    (h : a.outcome s = (.ok value, t)) : (a >>= f).outcome s = (f value).outcome t := by
  rw [outcome_bind, h]

theorem outcome_bind_of_error {a : Action α} {f : α → Action β} {s t : Session} {why : Abort}
    (h : a.outcome s = (.error why, t)) : (a >>= f).outcome s = (.error why, t) := by
  rw [outcome_bind, h]

theorem outcome_bind_eq_ok {a : Action α} {f : α → Action β} {s t : Session} {value : β} :
    (a >>= f).outcome s = (.ok value, t) ↔
      ∃ first middle, a.outcome s = (.ok first, middle) ∧
        (f first).outcome middle = (.ok value, t) := by
  constructor
  · intro h
    rw [outcome_bind] at h
    split at h
    · next first middle reached => exact ⟨first, middle, reached, h⟩
    · cases h
  · rintro ⟨first, middle, reached, h⟩
    rw [outcome_bind_of_ok reached, h]

end

end Action

end ModuleStubs
