import ModuleStubs.Proofs.Stub.Layout
import ModuleStubs.Proofs.Stub.Placement
import ModuleStubs.Proofs.Tool.Account

/-! What the stub writer hands to its writes: module after module the text of its stubs, with the
way each write ends. Of the session only soft failures are left. -/

namespace ModuleStubs

def Definition.warnings (m : Definition) : List Diagnostic :=
  m.aliasWarnings.map fun text => ⟨.warning, text, none⟩

structure Handed where
  definition : Definition
  text : Option Wording
  result : Except WriteFault Unit

namespace Handed

def isStored (h : Handed) : Bool := h.result.toOption.isSome

def bytes? (h : Handed) : Option (List UInt8) := h.text.bind fun text => text.encode.toOption

theorem bytes?_eq_some_iff {h : Handed} {bytes : List UInt8} : h.bytes? = some bytes ↔
    ∃ text, h.text = some text ∧ text.encode = .ok bytes := by
  rw [bytes?, Option.bind_eq_some_iff]
  refine exists_congr fun text => and_congr_right fun _ => ?_
  cases text.encode <;> simp [Except.toOption]

def refusal (h : Handed) : Option String :=
  match h.result with
  | .ok _ => none
  | .error why => why.settle.toOption

def fault (h : Handed) : Option Abort :=
  match h.result with
  | .ok _ => none
  | .error why =>
    match why.settle with
    | .ok _ => none
    | .error why => some why

def IsTorn (h : Handed) : Prop :=
  ∃ text why, h.text = some text ∧ text.encode = .error why ∧ h.result = .error (.torn why)

def IsBroken (h : Handed) : Prop :=
  ∃ message, h.result = .error (.template (.broken message))

/-- What the write leaves in the file, if it is opened. -/
def left? (h : Handed) : Option (List UInt8) :=
  match h.result with
  | .ok _ => h.bytes?
  | .error (.torn _) => some []
  | .error _ => none

def isOpened (h : Handed) : Bool := h.left?.isSome

theorem refusal_isSome_iff {h : Handed} :
    h.refusal.isSome = true ↔ h.isStored = false ∧ h.fault = none := by
  rw [refusal, isStored, fault]
  rcases h.result with why | _
  · cases settled : why.settle <;> simp [settled, Except.toOption]
  · simp [Except.toOption]

theorem isStored_iff {h : Handed} : h.isStored = true ↔ h.result = .ok () := by
  rw [isStored]
  rcases h.result with why | _ <;> simp [Except.toOption]

theorem fault_eq_none_of_isStored {h : Handed} (stored : h.isStored = true) : h.fault = none := by
  rw [fault, isStored_iff.mp stored]

end Handed

namespace StubOutput

def handed (o : StubOutput) (m : Definition) (unit : StubUnit) (d : Disk) : Handed :=
  ⟨m, o.text? d unit, (o.place (o.path m) unit d).1⟩

def handOver (o : StubOutput) (m : Definition) (unit : StubUnit) : Run Handed := do
  let d ← Run.disk
  let _ ← o.write m unit
  pure (o.handed m unit d)

/-- Writing the stubs of modules, with all that is handed to the writes. -/
def handing (o : StubOutput) : List Definition → Run (List Handed)
  | [] => pure []
  | m :: ms => do
    let unit ← Run.act (prepare m)
    let next := o.next (← Run.disk)
    let h ← o.handOver m unit
    let rest ← next.handing ms
    pure (h :: rest)

def storedPaths (o : StubOutput) (hs : List Handed) : List Path :=
  (hs.filter Handed.isStored).map fun h => o.path h.definition

def writeError (o : StubOutput) (h : Handed) : Option Diagnostic :=
  h.refusal.map (refusedNote h.definition (o.path h.definition))

def notes (o : StubOutput) (hs : List Handed) : List Diagnostic :=
  hs.flatMap fun h => h.definition.warnings ++ (o.writeError h).toList

section

variable {o : StubOutput} {m : Definition} {unit : StubUnit} {d : Disk} {w v : World}

@[simp] theorem storedPaths_next (o : StubOutput) (d : Disk) (hs : List Handed) :
    (o.next d).storedPaths hs = o.storedPaths hs := by
  simp only [storedPaths, path_next]

@[simp] theorem notes_next (o : StubOutput) (d : Disk) (hs : List Handed) :
    (o.next d).notes hs = o.notes hs := by
  simp only [notes, writeError, path_next]

theorem storedPaths_cons (o : StubOutput) (h : Handed) (hs : List Handed) :
    o.storedPaths (h :: hs) =
      if h.isStored then o.path h.definition :: o.storedPaths hs else o.storedPaths hs := by
  rw [storedPaths, List.filter_cons]
  split <;> rfl

theorem write_eq_ok {stored : Bool} (done : (o.write m unit).outcome w = (.ok stored, v)) :
    (o.handed m unit w.disk).isStored = stored ∧ v.printed = w.printed ∧
      w.session.Follows v.session ⟨[], (o.writeError (o.handed m unit w.disk)).toList⟩ := by
  rw [outcome_write] at done
  rw [writeError, Handed.refusal, Handed.isStored, handed]
  rcases placed : o.place (o.path m) unit w.disk with ⟨why | _, d⟩
  · rw [placed] at done
    cases settled : why.settle with
    | error why =>
      simp only [settled] at done
      cases done
    | ok text =>
      simp only [settled] at done
      cases done
      refine ⟨rfl, rfl, ?_⟩
      simp only [settled]
      exact w.session.follows_add_noted _
  · rw [placed] at done
    cases done
    exact ⟨rfl, rfl, w.session.follows_add_logged _⟩

theorem handOver_eq_ok_iff {h : Handed} : (o.handOver m unit).outcome w = (.ok h, v) ↔
    h = o.handed m unit w.disk ∧ (o.write m unit).outcome w = (.ok h.isStored, v) := by
  rw [handOver, Run.outcome_bind_of_ok (Run.outcome_disk w)]
  constructor
  · intro done
    obtain ⟨stored, x, written, last⟩ := Run.outcome_bind_eq_ok.mp done
    cases last
    rw [(write_eq_ok written).1]
    exact ⟨rfl, written⟩
  · rintro ⟨rfl, written⟩
    exact Run.outcome_bind_of_ok written

section

variable {ms : List Definition}

theorem generate_cons_eq_ok_iff {written : List Path} :
    (o.generate (m :: ms)).outcome w = (.ok written, v) ↔ ∃ unit x stored y rest,
      (Run.act (prepare m)).outcome w = (.ok unit, x) ∧
      (o.write m unit).outcome x = (.ok stored, y) ∧
      ((o.next x.disk).generate ms).outcome y = (.ok rest, v) ∧
      written = if stored then o.path m :: rest else rest := by
  constructor
  · intro done
    obtain ⟨unit, x, prepared, done⟩ := Run.outcome_bind_eq_ok.mp done
    obtain ⟨_, _, ⟨⟩, done⟩ := Run.outcome_bind_eq_ok.mp done
    obtain ⟨stored, y, writing, done⟩ := Run.outcome_bind_eq_ok.mp done
    obtain ⟨rest, _, remaining, ⟨⟩⟩ := Run.outcome_bind_eq_ok.mp done
    exact ⟨unit, x, stored, y, rest, prepared, writing, remaining, rfl⟩
  · rintro ⟨unit, x, stored, y, rest, prepared, writing, remaining, rfl⟩
    rw [generate, Run.outcome_bind_of_ok prepared, Run.outcome_bind_of_ok (Run.outcome_disk x),
      Run.outcome_bind_of_ok writing, Run.outcome_bind_of_ok remaining]
    rfl

theorem handing_cons_eq_ok_iff {hs : List Handed} :
    (o.handing (m :: ms)).outcome w = (.ok hs, v) ↔ ∃ unit x y others,
      (Run.act (prepare m)).outcome w = (.ok unit, x) ∧
      (o.write m unit).outcome x = (.ok (o.handed m unit x.disk).isStored, y) ∧
      ((o.next x.disk).handing ms).outcome y = (.ok others, v) ∧
      hs = o.handed m unit x.disk :: others := by
  constructor
  · intro done
    obtain ⟨unit, x, prepared, done⟩ := Run.outcome_bind_eq_ok.mp done
    obtain ⟨_, _, ⟨⟩, done⟩ := Run.outcome_bind_eq_ok.mp done
    obtain ⟨h, y, handing, done⟩ := Run.outcome_bind_eq_ok.mp done
    obtain ⟨others, _, remaining, ⟨⟩⟩ := Run.outcome_bind_eq_ok.mp done
    obtain ⟨rfl, writing⟩ := handOver_eq_ok_iff.mp handing
    exact ⟨unit, x, y, others, prepared, writing, remaining, rfl⟩
  · rintro ⟨unit, x, y, others, prepared, writing, remaining, rfl⟩
    rw [handing, Run.outcome_bind_of_ok prepared, Run.outcome_bind_of_ok (Run.outcome_disk x),
      Run.outcome_bind_of_ok (handOver_eq_ok_iff.mpr ⟨rfl, writing⟩),
      Run.outcome_bind_of_ok remaining]
    rfl

/-- Writing stubs is handing them to the writes, and returns the paths of what was stored. -/
theorem generate_eq_ok_iff {written : List Path} :
    (o.generate ms).outcome w = (.ok written, v) ↔
      ∃ hs, (o.handing ms).outcome w = (.ok hs, v) ∧ o.storedPaths hs = written := by
  induction ms generalizing o w written with
  | nil =>
    constructor
    · rintro ⟨⟩
      exact ⟨[], rfl, rfl⟩
    · rintro ⟨hs, ⟨⟩, rfl⟩
      rfl
  | cons m ms ih =>
    constructor
    · intro done
      obtain ⟨unit, x, stored, y, rest, prepared, writing, remaining, rfl⟩ :=
        generate_cons_eq_ok_iff.mp done
      obtain ⟨hs, handed, rfl⟩ := ih.mp remaining
      have known := (write_eq_ok writing).1
      rw [← known] at writing
      refine ⟨o.handed m unit x.disk :: hs,
        handing_cons_eq_ok_iff.mpr ⟨unit, x, y, hs, prepared, writing, handed, rfl⟩, ?_⟩
      rw [storedPaths_cons, known, storedPaths_next]
      rfl
    · rintro ⟨_, done, rfl⟩
      obtain ⟨unit, x, y, hs, prepared, writing, remaining, rfl⟩ :=
        handing_cons_eq_ok_iff.mp done
      have rest := ih.mpr ⟨hs, remaining, rfl⟩
      rw [storedPaths_next] at rest
      exact generate_cons_eq_ok_iff.mpr
        ⟨unit, x, _, y, _, prepared, writing, rest, storedPaths_cons _ _ _⟩

end

theorem prepare_eq_ok {s t : Session} (done : (prepare m).outcome s = (.ok unit, t)) :
    m.unit = .ok unit ∧ s.Follows t ⟨[], m.warnings⟩ := by
  obtain ⟨middle, warnings, -, follows⟩ := Action.outcome_warnings m.aliasWarnings s
  rw [prepare, Action.outcome_bind_of_ok warnings] at done
  cases result : m.unit with
  | error why =>
    rw [result] at done
    cases done
  | ok found =>
    rw [result] at done
    cases done
    exact ⟨rfl, follows⟩

/-- Every module is handed over once, in order. The session is left with the warnings of each
module, and behind them the error of its write if there was one. -/
theorem handing_eq_ok {ms : List Definition} {hs : List Handed}
    (done : (o.handing ms).outcome w = (.ok hs, v)) :
    hs.map Handed.definition = ms ∧ v.printed = w.printed ∧
      w.session.Follows v.session ⟨[], o.notes hs⟩ := by
  induction ms generalizing o w hs with
  | nil =>
    cases done
    exact ⟨rfl, rfl, .refl _⟩
  | cons m ms ih =>
    obtain ⟨unit, x, y, others, preparing, writing, remaining, rfl⟩ :=
      handing_cons_eq_ok_iff.mp done
    obtain ⟨session, outcome, rfl⟩ := Run.act_eq_ok preparing
    obtain ⟨-, warned⟩ := prepare_eq_ok outcome
    obtain ⟨-, silent, noted⟩ := write_eq_ok writing
    obtain ⟨listed, quiet, follows⟩ := ih remaining
    rw [notes_next] at follows
    refine ⟨congrArg (m :: ·) listed, quiet.trans silent, ?_⟩
    have all := (warned.trans noted).trans follows
    rw [notes, List.flatMap_cons]
    exact all

end

end StubOutput

end ModuleStubs
