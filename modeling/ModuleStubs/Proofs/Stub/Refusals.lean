import ModuleStubs.Disk.Assembly
import ModuleStubs.Proofs.Disk.Ways
import ModuleStubs.Proofs.Stub.AliasWarnings
import ModuleStubs.Proofs.Stub.Overwriting
import ModuleStubs.Proofs.Stub.ReturnValues
import ModuleStubs.Proofs.Text.Splitting

/-! Writes that are refused, while what may be written changes from module to module. A refusal
costs the stubs of its own module and leaves an error; all other modules are written, and only
their files and the output directory are touched. A text without bytes is not refused: it ends
the run, and leaves its file empty. -/

namespace ModuleStubs

def Disk.permit (places : Location → Bool) (d : Disk) : Disk := { d with writable := places }

def World.permit (places : Location → Bool) (w : World) : World :=
  { w with disk := w.disk.permit places }

def Run.permit (places : Location → Bool) : Run Unit := modify (World.permit places)

theorem Channel.writable_keep (c : Option Channel) (time : String) (r : Record) (d : Disk) :
    (keep c time r d).writable = d.writable := by
  unfold keep
  split
  · rfl
  · split
    · rfl
    · split_ifs
      · unfold append
        split <;> rfl
      · rfl

/-- What may be written stays as it is while records are logged. -/
theorem World.writable_advance (w : World) (s : Session) :
    (w.advance s).disk.writable = w.disk.writable := by
  have kept : ∀ (rs : List Record) (d : Disk),
      (rs.foldl (fun d r => Channel.keep w.channel w.time r d) d).writable = d.writable := by
    intro rs
    induction rs with
    | nil => exact fun d => rfl
    | cons r rs ih =>
      intro d
      rw [List.foldl_cons, ih, Channel.writable_keep]
  exact kept _ w.disk

namespace StubOutput

abbrev Turn := Definition × (Location → Bool)

/-- Writes the stubs of modules one after another, each in its turn. -/
def generateAmid (o : StubOutput) : List Turn → Run (List Path)
  | [] => pure []
  | (m, places) :: turns => do
    Run.permit places
    let unit ← Run.act (prepare m)
    let next := o.next (← Run.disk)
    let written ← o.write m unit
    let rest ← next.generateAmid turns
    pure (if written then o.path m :: rest else rest)

/-- How a run goes on the disk, turn after turn, and which fault ends it if one does. Records may
reach the log file before and after each write. -/
inductive Writes (log : Option Location) :
    StubOutput → Disk → List Turn → List Handed → Option Abort → Disk → Prop
  | done (o : StubOutput) (d : Disk) : Writes log o d [] [] none d
  | turn {o : StubOutput} {d before placed after e : Disk} {m : Definition}
      {places : Location → Bool} {unit : StubUnit} {text : Option Wording}
      {result : Except WriteFault Unit} {turns : List Turn} {hs : List Handed}
      {fault : Option Abort} (hasUnit : m.unit = .ok unit)
      (warned : Disk.Relogged log (d.permit places) before)
      (tried : o.Placed (o.path m) unit before text result placed)
      (survived : (Handed.mk m text result).fault = none) (told : Disk.Relogged log placed after)
      (rest : Writes log (o.next before) after turns hs fault e) :
      Writes log o d ((m, places) :: turns) (⟨m, text, result⟩ :: hs) fault e
  | ended {o : StubOutput} {d before e : Disk} {m : Definition} {places : Location → Bool}
      {unit : StubUnit} {text : Option Wording} {result : Except WriteFault Unit}
      {turns : List Turn} {why : Abort} (hasUnit : m.unit = .ok unit)
      (warned : Disk.Relogged log (d.permit places) before)
      (tried : o.Placed (o.path m) unit before text result e)
      (fatal : (Handed.mk m text result).fault = some why) :
      Writes log o d ((m, places) :: turns) [⟨m, text, result⟩] (some why) e

section

variable {o : StubOutput} {m : Definition} {w v : World} {p : Path} {unit : StubUnit}
  {text : Option Wording} {result : Except WriteFault Unit} {placed d e f : Disk}
  {log : Option Location}

theorem write_of_placed (ready : Channel.Ready w.channel w.disk)
    (tried : o.Placed (o.path m) unit w.disk text result placed)
    (survived : (Handed.mk m text result).fault = none) :
    ∃ v, (o.write m unit).outcome w = (.ok (Handed.mk m text result).isStored, v) ∧
      v.channel = w.channel ∧ Channel.Ready w.channel v.disk ∧
      Disk.Relogged (Channel.log w.channel) placed v.disk ∧
      w.session.Follows v.session ⟨[], (o.writeError ⟨m, text, result⟩).toList⟩ := by
  have kept := tried.ready ready
  have told := World.relogged_advance (w := { w with disk := placed }) kept
  rw [outcome_write, tried.place_eq, writeError, Handed.refusal, Handed.isStored]
  rcases result with why | _
  · cases settled : why.settle with
    | error why =>
      rw [Handed.fault] at survived
      simp only [settled] at survived
      cases survived
    | ok reason =>
      simp only [settled]
      exact ⟨_, rfl, rfl, kept.relogged (told _), told _, w.session.follows_add_noted _⟩
  · exact ⟨_, rfl, rfl, kept.relogged (told _), told _, w.session.follows_add_logged _⟩

theorem write_of_fatal {why : Abort} (tried : o.Placed (o.path m) unit w.disk text result placed)
    (fatal : (Handed.mk m text result).fault = some why) :
    (o.write m unit).outcome w = (.error why, { w with disk := placed }) := by
  rw [outcome_write, tried.place_eq]
  rw [Handed.fault] at fatal
  rcases result with other | _
  · cases settled : other.settle with
    | error other =>
      simp only [settled] at fatal
      cases fatal
      simp only [settled]
    | ok reason =>
      simp only [settled] at fatal
      cases fatal
  · cases fatal

theorem generateAmid_of_prepared {places : Location → Bool} {turns : List Turn} {s : Session}
    (prepared : (prepare m).outcome w.session = (.ok unit, s)) :
    (o.generateAmid ((m, places) :: turns)).outcome w =
      (do
        let written ← o.write m unit
        let rest ← (o.next ((w.permit places).advance s).disk).generateAmid turns
        pure (if written then o.path m :: rest else rest)).outcome
          ((w.permit places).advance s) := by
  have start : (Run.permit places).outcome w = (.ok (), w.permit places) := rfl
  have same : (prepare m).outcome (w.permit places).session = (.ok unit, s) := prepared
  have acted : (Run.act (prepare m)).outcome (w.permit places) =
      (.ok unit, (w.permit places).advance s) := by
    rw [Run.outcome_act, same]
  rw [generateAmid, Run.outcome_bind_of_ok start, Run.outcome_bind_of_ok acted,
    Run.outcome_bind_of_ok (Run.outcome_disk _)]

/-- A run over modules whose stubs can be prepared goes its way on the disk. If no fault ends it,
its result is the paths of what was stored; and of the session the warnings of each module are
left, and behind them the error of its write if there was one. -/
theorem writes_generateAmid {turns : List Turn}
    (settled : ∀ t ∈ turns, ∀ d ∈ t.1.declarations, d.signature.Settled)
    (ready : Channel.Ready w.channel w.disk) :
    ∃ hs fault v, (o.generateAmid turns).outcome w =
        (fault.elim (.ok (o.storedPaths hs)) Except.error, v) ∧
      Writes (Channel.log w.channel) o w.disk turns hs fault v.disk ∧
      w.session.Follows v.session ⟨[], o.notes hs⟩ := by
  induction turns generalizing o w with
  | nil => exact ⟨[], none, w, rfl, .done o w.disk, .refl w.session⟩
  | cons t turns ih =>
    obtain ⟨m, places⟩ := t
    obtain ⟨own, others⟩ := List.forall_mem_cons.mp settled
    obtain ⟨unit, s, hasUnit, prepared⟩ := prepare_of_settled own w.session
    have warned := (prepare_eq_ok prepared).2
    have permitted : Channel.Ready (w.permit places).channel (w.permit places).disk := ready
    have relogged := World.relogged_advance permitted s
    have opened := permitted.relogged relogged
    have turn := @generateAmid_of_prepared o m w unit places turns s prepared
    rcases placing : o.place (o.path m) unit ((w.permit places).advance s).disk
      with ⟨result, placed⟩
    obtain ⟨text, tried⟩ := placed_of_place placing
    cases known : (Handed.mk m text result).fault with
    | some why =>
      have failed := write_of_fatal tried known
      have silent : o.writeError ⟨m, text, result⟩ = none := by
        rw [writeError, Option.map_eq_none_iff, ← Option.not_isSome_iff_eq_none,
          Handed.refusal_isSome_iff, known]
        rintro ⟨-, ⟨⟩⟩
      refine ⟨[⟨m, text, result⟩], some why, { (w.permit places).advance s with disk := placed },
        turn.trans (Run.outcome_bind_of_error failed), .ended hasUnit relogged tried known, ?_⟩
      rw [notes, List.flatMap_singleton, silent, Option.toList_none, List.append_nil]
      exact warned
    | none =>
      obtain ⟨x, written, channel, kept, told, noted⟩ := write_of_placed opened tried known
      rw [← channel] at kept
      obtain ⟨hs, fault, v, outcome, writes, later⟩ :=
        @ih (o.next ((w.permit places).advance s).disk) x others kept
      rw [channel] at writes
      rw [notes_next] at later
      refine ⟨⟨m, text, result⟩ :: hs, fault, v, ?_,
        .turn hasUnit relogged tried known told writes, ?_⟩
      · rw [turn, Run.outcome_bind_of_ok written]
        cases fault with
        | none =>
          rw [Run.outcome_bind_of_ok outcome, storedPaths_cons, storedPaths_next]
          rfl
        | some why => exact Run.outcome_bind_of_error outcome
      · rw [notes, List.flatMap_cons]
        exact (warned.trans noted).trans later

theorem Placed.writable (placed : o.Placed p unit d text result e) : e.writable = d.writable := by
  cases placed with
  | blocked failed => exact (Disk.paves_of_made failed).writable
  | unlaid made => exact (Disk.paves_of_made made).writable
  | refused made => exact (Disk.paves_of_made made).writable
  | torn made => exact (Disk.paves_of_made made).writable
  | stored made => exact (Disk.paves_of_made made).writable

theorem writable_write (m : Definition) (unit : StubUnit) (w : World) :
    ((o.write m unit).outcome w).2.disk.writable = w.disk.writable := by
  rcases placing : o.place (o.path m) unit w.disk with ⟨result, d⟩
  obtain ⟨text, placed⟩ := placed_of_place placing
  have same := placed.writable
  rw [outcome_write, placing]
  rcases result with why | _
  · cases settled : why.settle with
    | error other => simpa only [settled] using same
    | ok reason =>
      simp only [settled]
      exact (World.writable_advance _ _).trans same
  · exact (World.writable_advance _ _).trans same

/-- Where nothing changes what may be written, a run in turns is the run over the modules. -/
theorem generateAmid_of_steady {turns : List Turn} (steady : ∀ t ∈ turns, t.2 = w.disk.writable) :
    (o.generateAmid turns).outcome w = (o.generate (turns.map Prod.fst)).outcome w := by
  induction turns generalizing o w with
  | nil => rfl
  | cons t turns ih =>
    obtain ⟨m, places⟩ := t
    obtain ⟨own, others⟩ := List.forall_mem_cons.mp steady
    have start : (Run.permit places).outcome w = (.ok (), w) := by
      rw [show places = w.disk.writable from own]
      rfl
    rw [generateAmid, Run.outcome_bind_of_ok start, List.map_cons, generate, Run.outcome_bind,
      Run.outcome_bind]
    rcases prepared : (Run.act (prepare m)).outcome w with ⟨why | unit, x⟩
    · rfl
    · have same : x.disk.writable = w.disk.writable := by
        rw [Run.outcome_act] at prepared
        rw [← (Prod.mk.inj prepared).2, World.writable_advance]
      simp only [Run.outcome_bind_of_ok (Run.outcome_disk x), Run.outcome_bind (o.write m unit)]
      have still := writable_write (o := o) m unit x
      rcases written : (o.write m unit).outcome x with ⟨why | stored, y⟩
      · rfl
      · rw [written] at still
        simp only [Run.outcome_bind]
        rw [@ih (o.next x.disk) y fun t mem => (others t mem).trans (still.trans same).symm]

end

/-- What a run may have changed on the disk: directories that were missing on the way to the output
directory, and the files that writes have opened. Only the log file is left out. -/
structure Leaves (o : StubOutput) (log : Option Location) (hs : List Handed) (d e : Disk) : Prop
    extends Disk.Keeps d e where
  item : ∀ l, log ≠ some l → e.item? l = d.item? l ∨
    (d.item? l = none ∧ e.item? l = some .directory ∧ e.OnWay o.directory l) ∨
    ∃ h ∈ hs, ∃ bytes, h.left? = some bytes ∧ e.find (o.path h.definition) = .ok l ∧
      e.item? l = some (.file bytes)

section

variable {o : StubOutput} {m : Definition} {p : Path} {unit : StubUnit} {text : Option Wording}
  {result : Except WriteFault Unit} {d e f : Disk} {log : Option Location}
  {hs more : List Handed} {turns : List Turn} {fault : Option Abort}

theorem Leaves.of_relogged (same : Disk.Relogged log d e) : o.Leaves log [] d e :=
  ⟨same.sameDirectories.keeps, fun l off => .inl (same.item l off)⟩

theorem Leaves.permit (o : StubOutput) (log : Option Location) (places : Location → Bool)
    (d : Disk) : o.Leaves log [] d (d.permit places) :=
  ⟨⟨rfl, fun _ there => there⟩, fun _ _ => .inl rfl⟩

theorem Leaves.of_paves (paved : Disk.Paves o.directory d e) : o.Leaves log [] d e :=
  ⟨paved.toKeeps, fun l _ => (paved.item l).imp id .inl⟩

theorem Leaves.mono (left : o.Leaves log hs d e) (sub : hs ⊆ more) : o.Leaves log more d e := by
  refine ⟨left.toKeeps, fun l off => ?_⟩
  rcases left.item l off with same | made | ⟨h, mem, opened⟩
  · exact .inl same
  · exact .inr (.inl made)
  · exact .inr (.inr ⟨h, sub mem, opened⟩)

theorem Leaves.of_next {g : Disk} (left : (o.next g).Leaves log hs d e) : o.Leaves log hs d e := by
  refine ⟨left.toKeeps, fun l off => ?_⟩
  have item := left.item l off
  rwa [directory_next, path_next] at item

theorem Leaves.trans (first : o.Leaves log hs d e) (second : o.Leaves log more e f) :
    o.Leaves log (hs ++ more) d f := by
  refine ⟨first.toKeeps.trans second.toKeeps, fun l off => ?_⟩
  rcases second.item l off with same | ⟨empty, made, way⟩ | ⟨h, mem, opened⟩
  · rcases first.item l off with before | ⟨empty, made, way⟩ | ⟨h, mem, bytes, left, found, there⟩
    · exact .inl (same.trans before)
    · exact .inr (.inl ⟨empty, same.trans made, way.mono second.toKeeps⟩)
    · exact .inr (.inr ⟨h, List.mem_append_left more mem, bytes, left,
        Disk.find_of_keeps second.toKeeps found, same.trans there⟩)
  -- What was missing in between has been missing from the start.
  · rcases first.item l off with before | ⟨-, taken, -⟩ | ⟨h, mem, bytes, -, -, taken⟩
    · exact .inr (.inl ⟨before.symm.trans empty, made, way⟩)
    · exact nomatch empty.symm.trans taken
    · exact nomatch empty.symm.trans taken
  · exact .inr (.inr ⟨h, List.mem_append_right hs mem, opened⟩)

theorem Leaves.of_opened {h : Handed} {l : Location} {bytes : List UInt8}
    (left : h.left? = some bytes) (opened : d.fileLocation (o.path h.definition) = .ok l) :
    o.Leaves log [h] d (d.put l (.file bytes)) := by
  obtain ⟨found, apart⟩ := Disk.fileLocation_eq_ok opened
  have kept := Disk.keeps_put apart (.file bytes)
  refine ⟨kept, fun other _ => ?_⟩
  by_cases here : other = l
  · subst here
    exact .inr (.inr ⟨h, List.mem_singleton_self _, bytes, left, Disk.find_of_keeps kept found,
      Disk.item?_put_self (Disk.ne_nil_of_item? apart) _⟩)
  · exact .inl (Disk.item?_put_of_ne here _)

theorem Placed.leaves (placed : o.Placed (o.path m) unit d text result e) :
    o.Leaves log [⟨m, text, result⟩] d e := by
  have paved : ∀ {done : Except DiskFault Unit} {middle : Disk},
      d.makeDirectories o.directory = (done, middle) → o.Leaves log [] d middle :=
    fun made => .of_paves (Disk.paves_of_made made)
  cases placed with
  | blocked failed => exact (paved failed).mono (List.nil_subset _)
  | unlaid made => exact (paved made).mono (List.nil_subset _)
  | refused made => exact (paved made).mono (List.nil_subset _)
  | torn made laid opened torn => exact (paved made).trans (.of_opened rfl opened)
  | stored made laid opened encoded =>
    exact (paved made).trans
      (.of_opened (Handed.bytes?_eq_some_iff.mpr ⟨_, rfl, encoded⟩) opened)

theorem Writes.leaves (writes : Writes log o d turns hs fault e) : o.Leaves log hs d e := by
  induction writes with
  | done o d => exact .of_relogged (.refl log d)
  | @turn o d _ _ _ _ _ places _ _ _ _ _ _ hasUnit warned tried survived told rest ih =>
    have before := (Leaves.permit o log places d).trans (Leaves.of_relogged warned)
    exact before.trans (tried.leaves.trans ((Leaves.of_relogged told).trans ih.of_next))
  | @ended o d _ _ _ places _ _ _ _ _ hasUnit warned tried =>
    have before := (Leaves.permit o log places d).trans (Leaves.of_relogged warned)
    exact before.trans tried.leaves

theorem Writes.definitions (writes : Writes log o d turns hs fault e) :
    hs.map Handed.definition <+: turns.map Prod.fst ∧
      (fault = none → hs.map Handed.definition = turns.map Prod.fst) := by
  induction writes with
  | done o d => exact ⟨List.prefix_rfl, fun _ => rfl⟩
  | turn hasUnit warned tried survived told rest ih =>
    exact ⟨List.cons_prefix_cons.mpr ⟨rfl, ih.1⟩, fun fine => congrArg (_ :: ·) (ih.2 fine)⟩
  | ended hasUnit warned tried fatal =>
    exact ⟨List.cons_prefix_cons.mpr ⟨rfl, List.nil_prefix⟩, nofun⟩

theorem Writes.fault_eq_some_iff (writes : Writes log o d turns hs fault e) {why : Abort} :
    fault = some why ↔ ∃ h ∈ hs, h.fault = some why := by
  induction writes with
  | done o d => simp
  | turn hasUnit warned tried survived told rest ih => simp [ih, survived]
  | ended hasUnit warned tried fatal => simp [fatal]

theorem Writes.fault_eq_none_iff (writes : Writes log o d turns hs fault e) :
    fault = none ↔ ∀ h ∈ hs, h.fault = none := by
  simp only [Option.eq_none_iff_forall_ne_some, Ne, writes.fault_eq_some_iff, not_exists, not_and]
  exact ⟨fun none h mem why => none why h mem, fun none why h mem => none h mem why⟩

/-- In between there is a disk on which the file of the module holds the text that was handed to
its write; from there on only later writes change it. -/
def Lands (o : StubOutput) (log : Option Location) (d e : Disk) (front : List Handed) (h : Handed)
    (back : List Handed) : Prop :=
  ∃ during bytes, h.bytes? = some bytes ∧ during.read (o.path h.definition) = .ok bytes ∧
    o.Leaves log (front ++ [h]) d during ∧ o.Leaves log back during e

theorem Placed.read (placed : o.Placed p unit d text (.ok ()) e) :
    ∃ bytes, (Handed.mk m text (.ok ())).bytes? = some bytes ∧ e.read p = .ok bytes := by
  cases placed with
  | @stored _ bytes middle l made laid opened encoded =>
    obtain ⟨found, apart⟩ := Disk.fileLocation_eq_ok opened
    have kept := Disk.keeps_put apart (.file bytes)
    refine ⟨bytes, Handed.bytes?_eq_some_iff.mpr ⟨_, rfl, encoded⟩, ?_⟩
    exact (Disk.read_eq_ok_iff (Disk.find_of_keeps kept found)).mpr
      (Disk.item?_put_self (Disk.ne_nil_of_item? apart) _)

theorem Lands.of_next {g : Disk} {front back : List Handed} {h : Handed}
    (lands : (o.next g).Lands log d e front h back) : o.Lands log d e front h back := by
  obtain ⟨during, bytes, text, read, before, after⟩ := lands
  rw [path_next] at read
  exact ⟨during, bytes, text, read, before.of_next, after.of_next⟩

/-- What is reported as stored has been stored. -/
theorem Writes.lands (writes : Writes log o d turns hs fault e) {front back : List Handed}
    {h : Handed} (split : hs = front ++ h :: back) (stored : h.isStored = true) :
    o.Lands log d e front h back := by
  induction writes generalizing front with
  | done o d => simp at split
  | @turn o d _ _ _ _ m places _ text result _ _ _ hasUnit warned tried survived told rest ih =>
    have before := (Leaves.permit o log places d).trans (Leaves.of_relogged warned)
    cases front with
    | nil =>
      cases split
      rcases result with why | _
      · cases stored
      · obtain ⟨bytes, shown, read⟩ := tried.read (m := m)
        exact ⟨_, bytes, shown, read, before.trans tried.leaves,
          (Leaves.of_relogged told).trans rest.leaves.of_next⟩
    | cons first front =>
      cases split
      obtain ⟨during, bytes, shown, read, start, after⟩ := (ih rfl).of_next
      exact ⟨during, bytes, shown, read,
        before.trans (tried.leaves.trans ((Leaves.of_relogged told).trans start)), after⟩
  | ended hasUnit warned tried fatal =>
    cases front with
    | cons first front => simp at split
    | nil =>
      cases split
      have both := Handed.fault_eq_none_of_isStored stored
      rw [fatal] at both
      cases both

/-- Without null characters only a torn text or a template that fails can end a run. -/
theorem Placed.isTorn_or_isBroken (placed : o.Placed p unit d text result e)
    (directory : Disk.hasNull o.directory = false) (path : Disk.hasNull p = false) {why : Abort}
    (fatal : (Handed.mk m text result).fault = some why) :
    (Handed.mk m text result).IsTorn ∨ (Handed.mk m text result).IsBroken := by
  cases placed with
  | @blocked why _ failed =>
    cases why with
    | refused why subject => cases fatal
    | nullCharacter =>
      have null := Disk.makeDirectories_null_iff.mp (congrArg Prod.fst failed)
      exact nomatch directory.symm.trans null
  | @unlaid why _ made failed =>
    cases why with
    | refused message => cases fatal
    | broken message => exact .inr ⟨message, rfl⟩
  | @refused _ why _ made laid failed =>
    cases why with
    | refused why subject => cases fatal
    | nullCharacter => exact nomatch path.symm.trans (Disk.fileLocation_null_iff.mp failed)
  | torn made laid opened torn => exact .inl ⟨_, _, rfl, torn, rfl⟩
  | stored made laid opened encoded => cases fatal

theorem Writes.fault_cases (writes : Writes log o d turns hs fault e)
    (directory : Disk.hasNull o.directory = false)
    (paths : ∀ t ∈ turns, Disk.hasNull (o.path t.1) = false) :
    ∀ h ∈ hs, ∀ why, h.fault = some why → h.IsTorn ∨ h.IsBroken := by
  induction writes with
  | done o d => exact nofun
  | turn hasUnit warned tried survived told rest ih =>
    obtain ⟨-, others⟩ := List.forall_mem_cons.mp paths
    refine List.forall_mem_cons.mpr ⟨fun why fatal => ?_, ih ?_ ?_⟩
    · exact nomatch survived.symm.trans fatal
    · rwa [directory_next]
    · rwa [path_next]
  | ended hasUnit warned tried fatal =>
    refine List.forall_mem_singleton.mpr fun why fatal => ?_
    exact tried.isTorn_or_isBroken directory (List.forall_mem_cons.mp paths).1 fatal

theorem Writes.returns_iff (writes : Writes log o d turns hs fault e)
    (directory : Disk.hasNull o.directory = false)
    (paths : ∀ t ∈ turns, Disk.hasNull (o.path t.1) = false) :
    fault = none ↔ ∀ h ∈ hs, ¬ h.IsTorn ∧ ¬ h.IsBroken := by
  rw [writes.fault_eq_none_iff]
  refine forall₂_congr fun h mem => ⟨fun survived => ?_, fun ⟨whole, laid⟩ => ?_⟩
  · rw [Handed.fault] at survived
    constructor
    · rintro ⟨text, why, -, -, result⟩
      rw [result] at survived
      cases survived
    · rintro ⟨message, result⟩
      rw [result] at survived
      cases survived
  · refine Option.eq_none_iff_forall_ne_some.mpr fun why fatal => ?_
    rcases writes.fault_cases directory paths h mem why fatal with torn | broken
    · exact whole torn
    · exact laid broken

theorem Writes.packaged (writes : Writes log o d turns hs fault e) (packaged : o.templates = none)
    (whole : ∀ t ∈ turns, ∀ unit, t.1.unit = .ok unit → unit.render.Whole) :
    ∀ h ∈ hs, ¬ h.IsTorn ∧ ¬ h.IsBroken := by
  have turn : ∀ {o : StubOutput} {before placed : Disk} {m : Definition} {unit : StubUnit}
      {text : Option Wording} {result : Except WriteFault Unit}, o.templates = none →
      unit.render.Whole → o.Placed (o.path m) unit before text result placed →
      ¬ (Handed.mk m text result).IsTorn ∧ ¬ (Handed.mk m text result).IsBroken := by
    intro o before placed m unit text result packaged whole tried
    constructor
    · rintro ⟨text, why, rfl, torn, -⟩
      obtain rfl := eq_render_of_packaged packaged tried.text_eq.symm
      obtain ⟨s, same⟩ := whole
      rw [same, Wording.encode_ofString] at torn
      cases torn
    · rintro ⟨message, rfl⟩
      cases tried with
      | unlaid made failed =>
        rw [render_of_packaged packaged] at failed
        cases failed
  induction writes with
  | done o d => exact nofun
  | turn hasUnit warned tried survived told rest ih =>
    obtain ⟨own, others⟩ := List.forall_mem_cons.mp whole
    refine List.forall_mem_cons.mpr ⟨turn packaged (own _ hasUnit) tried, ih ?_ others⟩
    rwa [next_of_packaged packaged]
  | ended hasUnit warned tried fatal =>
    obtain ⟨own, -⟩ := List.forall_mem_cons.mp whole
    exact List.forall_mem_singleton.mpr (turn packaged (own _ hasUnit) tried)

theorem hasNull_eq_false_iff :
    Disk.hasNull p = false ↔ ∀ part ∈ p.parts, Char.ofNat 0 ∉ part.toList := by
  simp [Disk.hasNull]

theorem hasNull_path (directory : Disk.hasNull o.directory = false)
    (extension : Char.ofNat 0 ∉ o.extension.toList) (name : Char.ofNat 0 ∉ m.name.toList) :
    Disk.hasNull (o.path m) = false := by
  have below : Disk.hasNull (Path.ofString (m.name ++ "." ++ o.extension)) = false := by
    refine hasNull_eq_false_iff.mpr fun part mem => ?_
    obtain ⟨piece, cut, rfl⟩ := List.mem_map.mp (List.mem_of_mem_filter mem)
    rw [String.toList_ofList]
    intro held
    have whole := Text.mem_of_mem_splitOn cut held
    rw [String.toList_append, String.toList_append, List.mem_append, List.mem_append] at whole
    rcases whole with (inName | dot) | inExtension
    · exact name inName
    · exact absurd dot (by decide)
    · exact extension inExtension
  change Disk.hasNull (Path.append o.directory _) = false
  rw [Path.append]
  split_ifs
  · exact below
  · rw [hasNull_eq_false_iff] at directory below ⊢
    intro part mem
    rcases List.mem_append.mp mem with above | inside
    · exact directory part above
    · exact below part inside

end

structure Isolated (o : StubOutput) (turns : List Turn) (w v : World) (hs : List Handed)
    (fault : Option Abort) : Prop where
  /-- In each turn the write is tried on the disk that the turns before have left. -/
  writes : Writes (Channel.log w.channel) o w.disk turns hs fault v.disk
  modules : hs.map Handed.definition <+: turns.map Prod.fst
  complete : fault = none → hs.map Handed.definition = turns.map Prod.fst
  returns_iff : fault = none ↔ ∀ h ∈ hs, ¬ h.IsTorn ∧ ¬ h.IsBroken
  /-- By the packaged template nothing ends the run if no name is torn. -/
  returns : o.templates = none →
    (∀ t ∈ turns, ∀ unit, t.1.unit = .ok unit → unit.render.Whole) → fault = none
  refused : fault = none → ∀ h ∈ hs, h.refusal.isSome = true ↔ h.isStored = false
  diagnostics : v.session.diagnostics = w.session.diagnostics ++ o.notes hs
  lands : ∀ front h back, hs = front ++ h :: back → h.isStored = true →
    o.Lands (Channel.log w.channel) w.disk v.disk front h back
  leaves : o.Leaves (Channel.log w.channel) hs w.disk v.disk

/-- Failed writes are isolated. Whatever may be written in each turn, a run over extracted modules
with no null character in the output directory, the extension or a name goes from module to
module, and only a torn text or a template that fails keeps it from returning. It returns, in
order, the paths of exactly the modules that were stored. The same holds for the run that does not
change what may be written. -/
theorem refusals_isolated (o : StubOutput) (turns : List Turn) (w : World)
    (ready : Channel.Ready w.channel w.disk) (directory : Disk.hasNull o.directory = false)
    (extension : Char.ofNat 0 ∉ o.extension.toList)
    (names : ∀ t ∈ turns, Char.ofNat 0 ∉ t.1.name.toList)
    (extracted : ∀ t ∈ turns, t.1.Extracted) :
    ∃ hs fault v,
      (o.generateAmid turns).outcome w = (fault.elim (.ok (o.storedPaths hs)) Except.error, v) ∧
      o.Isolated turns w v hs fault ∧
      ((∀ t ∈ turns, t.2 = w.disk.writable) → (o.generate (turns.map Prod.fst)).outcome w =
        (fault.elim (.ok (o.storedPaths hs)) Except.error, v)) := by
  obtain ⟨hs, fault, v, outcome, writes, follows⟩ :=
    writes_generateAmid (fun t mem => (extracted t mem).settled) ready
  have paths : ∀ t ∈ turns, Disk.hasNull (o.path t.1) = false := fun t mem =>
    hasNull_path directory extension (names t mem)
  obtain ⟨modules, complete⟩ := writes.definitions
  have returns_iff := writes.returns_iff directory paths
  refine ⟨hs, fault, v, outcome, ⟨writes, modules, complete, returns_iff, ?_, ?_,
    follows.diagnostics, fun front h back split => writes.lands split, writes.leaves⟩,
    fun steady => ?_⟩
  · exact fun packaged whole => returns_iff.mpr (writes.packaged packaged whole)
  · intro fine h mem
    rw [Handed.refusal_isSome_iff]
    exact and_iff_left (writes.fault_eq_none_iff.mp fine h mem)
  · rw [← generateAmid_of_steady steady]
    exact outcome

def fourTurns : List Turn :=
  [({ name := "A" }, fun _ => true), (Definition.resultModule fun _ => ['U', '?'], fun _ => false),
    ({ name := "x/B" }, fun _ => true), ({ name := "C" }, fun _ => true)]

theorem extracted_fourTurns : ∀ t ∈ fourTurns, t.1.Extracted := by
  have legible : ∀ offset : Int, Definition.ReadsAsResult ['U', '?'] := by
    intro offset
    rw [Definition.readsAsResult_iff, Definition.resultText, String.toList_ofList]
    decide +kernel
  simp only [fourTurns, List.forall_mem_cons, List.not_mem_nil, false_implies, implies_true,
    and_true]
  refine ⟨?_, Definition.extracted_resultModule legible, ?_, ?_⟩
  · exact @Definition.extracted_of_name "A" "A" 1 (by decide +kernel)
  · exact @Definition.extracted_of_name "x/B" "x/B" 3 (by decide +kernel)
  · exact @Definition.extracted_of_name "C" "C" 1 (by decide +kernel)

theorem two_of_four_refused :
    ∃ hs v, (mocks.generateAmid fourTurns).outcome { disk := .blank [] } =
        (.ok [⟨.relative, ["mocks", "A.ts"]⟩, ⟨.relative, ["mocks", "C.ts"]⟩], v) ∧
      mocks.Isolated fourTurns { disk := .blank [] } v hs none ∧
      v.session.diagnostics.map (fun d => (d.severity, d.source)) =
        [(.warning, none), (.error, some ⟨.relative, ["mocks", "M.ts"]⟩),
          (.error, some ⟨.relative, ["mocks", "x", "B.ts"]⟩)] := by
  have names : ∀ t ∈ fourTurns, Char.ofNat 0 ∉ t.1.name.toList := by decide +kernel
  obtain ⟨hs, fault, v, outcome, isolated, -⟩ := refusals_isolated mocks fourTurns
    { disk := .blank [] } nofun (by decide +kernel) (by decide +kernel) names extracted_fourTurns
  have paths : ((mocks.generateAmid fourTurns).outcome { disk := .blank [] }).1.toOption =
      some [⟨.relative, ["mocks", "A.ts"]⟩, ⟨.relative, ["mocks", "C.ts"]⟩] := by
    decide +kernel
  have notes : ((mocks.generateAmid fourTurns).outcome
      { disk := .blank [] }).2.session.diagnostics.map (fun d => (d.severity, d.source)) =
        [(.warning, none), (.error, some ⟨.relative, ["mocks", "M.ts"]⟩),
          (.error, some ⟨.relative, ["mocks", "x", "B.ts"]⟩)] := by
    decide +kernel
  rw [outcome] at paths notes
  cases fault with
  | some why => cases paths
  | none =>
    refine ⟨hs, v, ?_, isolated, notes⟩
    rw [outcome]
    exact Prod.ext (eq_ok_of_toOption paths) rfl

/-- A module whose one type is half a surrogate pair ends its run, and leaves its file empty. -/
theorem torn_type_ends_run : ∃ m : Definition, m.Extracted ∧ m.name = "M" ∧
    let outcome := (mocks.generate [m]).outcome { disk := .blank [] }
    outcome.1.mapError Abort.message = .error
      "'utf-8' codec can't encode character '\\ud800' in position 12: surrogates not allowed" ∧
    outcome.2.disk.item? ["mocks", "M.ts"] = some (.file []) ∧
    outcome.2.session.diagnostics.map (·.severity) = [.warning] := by
  let seen (m : Definition) :=
    let outcome := (mocks.generate [m]).outcome { disk := .blank [] }
    (m.name, outcome.1.mapError Abort.message, outcome.2.disk.item? ["mocks", "M.ts"],
      outcome.2.session.diagnostics.map (·.severity))
  have shown : ((Definition.closureExtractor.surface
      (Definition.closureRoot [[.half 0]]) none).outcome {}).1.toOption.map seen =
      some ("M", .error
        "'utf-8' codec can't encode character '\\ud800' in position 12: surrogates not allowed",
        some (.file []), [.warning]) := by
    decide +kernel
  obtain ⟨m, extracted, -, data⟩ := Definition.exists_of_surface (fun _ => rfl) rfl shown
  simp only [seen, Prod.mk.injEq] at data
  exact ⟨m, extracted, data⟩

end StubOutput

end ModuleStubs
