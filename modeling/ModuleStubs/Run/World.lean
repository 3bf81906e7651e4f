import ModuleStubs.Log.Channel
import ModuleStubs.Tool.Session

/-! What a run works on: the disk, the session and the channel for its records. A
record is in the log file before the run goes on. -/

namespace ModuleStubs

structure World where
  disk : Disk
  session : Session := {}
  channel : Option Channel := none
  /-- The time as log files show it. -/
  time : String := ""
  printed : String := ""

namespace World

/-- Takes over a later session and writes its new records to the log file. -/
def advance (w : World) (s : Session) : World :=
  let fresh := s.records.drop w.session.records.length
  { w with
    session := s
    disk := fresh.foldl (fun d r => Channel.keep w.channel w.time r d) w.disk }

def console (w : World) : String :=
  String.join (w.session.records.map (Channel.console w.channel))

end World

abbrev Run := ExceptT Abort (StateM World)

namespace Run

def act {α : Type} (a : Action α) : Run α := do
  let w ← get
  let (result, session) := a.outcome w.session
  set (w.advance session)
  match result with
  | .ok value => pure value
  | .error why => throw why

def liftExcept {α : Type} : Except Abort α → Run α
  | .ok value => pure value
  | .error why => throw why

def disk : Run Disk := return (← get).disk

/-- Prints a text; one that is torn ends the run. -/
def print (text : Wording) : Run Unit :=
  match text.text with
  | .ok text => modify fun w => { w with printed := w.printed ++ text }
  | .error why => throw (.torn why)

def setDisk (d : Disk) : Run Unit := modify fun w => { w with disk := d }

def outcome {α : Type} (r : Run α) (w : World) : Except Abort α × World := ExceptT.run r w

section

variable {α β : Type}

@[simp] theorem outcome_pure (a : α) (w : World) : (pure a : Run α).outcome w = (.ok a, w) := rfl

@[simp] theorem outcome_throw (why : Abort) (w : World) :
    (throw why : Run α).outcome w = (.error why, w) := rfl

@[simp] theorem outcome_disk (w : World) : disk.outcome w = (.ok w.disk, w) := rfl

@[simp] theorem outcome_setDisk (d : Disk) (w : World) :
    (setDisk d).outcome w = (.ok (), { w with disk := d }) := rfl

theorem outcome_bind (r : Run α) (f : α → Run β) (w : World) :
    (r >>= f).outcome w =
      match r.outcome w with
      | (.ok value, w) => (f value).outcome w
      | (.error why, w) => (.error why, w) := by
  change (match r.outcome w with
    | (result, w) => (ExceptT.bindCont f result).run w) = _
  rcases r.outcome w with ⟨_ | _, _⟩ <;> rfl

theorem outcome_bind_of_ok {r : Run α} {f : α → Run β} {w v : World} {value : α}
    (h : r.outcome w = (.ok value, v)) : (r >>= f).outcome w = (f value).outcome v := by
  rw [outcome_bind, h]

theorem outcome_bind_of_error {r : Run α} {f : α → Run β} {w v : World} {why : Abort}
    (h : r.outcome w = (.error why, v)) : (r >>= f).outcome w = (.error why, v) := by
  rw [outcome_bind, h]

theorem outcome_bind_eq_ok {r : Run α} {f : α → Run β} {w v : World} {value : β} :
    (r >>= f).outcome w = (.ok value, v) ↔
      ∃ first middle, r.outcome w = (.ok first, middle) ∧
        (f first).outcome middle = (.ok value, v) := by
  constructor
  · intro h
    rw [outcome_bind] at h
    split at h
    · next first middle reached => exact ⟨first, middle, reached, h⟩
    · cases h
  · rintro ⟨first, middle, reached, h⟩
    rw [outcome_bind_of_ok reached, h]

/-- Work on the session leaves its result, and its records go where the channel leads. -/
theorem outcome_act (a : Action α) (w : World) :
    (act a).outcome w = ((a.outcome w.session).1, w.advance (a.outcome w.session).2) := by
  rw [act, outcome_bind_of_ok (show (get : Run World).outcome w = (.ok w, w) from rfl)]
  rcases a.outcome w.session with ⟨_ | _, _⟩ <;> rfl

theorem act_eq_ok {a : Action α} {w v : World} {value : α}
    (done : (act a).outcome w = (.ok value, v)) :
    ∃ s, a.outcome w.session = (.ok value, s) ∧ v = w.advance s := by
  rw [outcome_act] at done
  obtain ⟨result, world⟩ := Prod.ext_iff.mp done
  exact ⟨_, Prod.ext result rfl, world.symm⟩

end

end Run

end ModuleStubs
