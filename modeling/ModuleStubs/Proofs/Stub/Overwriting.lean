import ModuleStubs.Proofs.Stub.Handing

/-! Which stubs are on the disk in the end. A run writes file after file; what a file
holds at last comes from the last module that was written there, and, if it is the log
file, from the records after it. -/

namespace ModuleStubs

namespace Disk

/-- One file is written anew; all else only grows. -/
structure Rewrites (log : Option Location) (l : Location) (bytes : List UInt8) (d e : Disk) : Prop
    extends Keeps d e where
  target : Holds log e l bytes
  /-- In the log file a record follows. -/
  noted : log = some l → e.item? l ≠ some (.file bytes)
  file : ∀ other ≠ l, ∀ bytes, d.item? other = some (.file bytes) → Holds log e other bytes

variable {log : Option Location} {l : Location} {bytes : List UInt8} {d e f : Disk}

theorem Holds.isFile (held : Holds log e l bytes) : ∃ all, e.item? l = some (.file all) := by
  obtain ⟨more, there, -⟩ := held
  exact ⟨bytes ++ more, there⟩

theorem Holds.ne_of_ne (held : Holds log e l bytes) (ne : e.item? l ≠ some (.file bytes))
    (later : ∀ bytes, e.item? l = some (.file bytes) → Holds log f l bytes) :
    f.item? l ≠ some (.file bytes) := by
  intro same
  obtain ⟨more, there, -⟩ := held
  obtain ⟨late, last, -⟩ := later _ there
  rw [last, Option.some.injEq, Entry.file.injEq, List.append_assoc] at same
  have nothing := (List.append_eq_nil_iff.mp (List.append_cancel_left
    (same.trans (List.append_nil bytes).symm))).1
  rw [nothing, List.append_nil] at there
  exact ne there

theorem Rewrites.after (grown : Grows log d e) (written : Rewrites log l bytes e f) :
    Rewrites log l bytes d f := by
  refine ⟨grown.toKeeps.trans written.toKeeps, written.target, written.noted, ?_⟩
  exact fun other ne bytes h => (grown.file other bytes h).mono (written.file other ne)

end Disk

theorem Channel.Ready.rewritten {c : Option Channel} {l : Location} {bytes : List UInt8}
    {d e : Disk} (ready : Ready c d) (written : Disk.Rewrites (log c) l bytes d e) :
    Ready c e := by
  intro other lead
  by_cases same : other = l
  · rw [same]
    exact written.target.isFile
  · obtain ⟨old, there⟩ := ready other lead
    exact (written.file other same old there).isFile

theorem Channel.rewrites_keep {c : Option Channel} {d : Disk} {l : Location}
    (ready : Ready c d) (apart : d.item? l ≠ some .directory) (bytes : List UInt8)
    (time : String) {r : Record} (attached : r.isAttached = true)
    (loud : Level.info.rank ≤ r.level.rank) (whole : r.message.Whole) :
    Disk.Rewrites (log c) l bytes d (keep c time r (d.put l (.file bytes))) := by
  have self : (d.put l (.file bytes)).item? l = some (.file bytes) :=
    Disk.item?_put_self (Disk.ne_nil_of_item? apart) _
  have ready' : Ready c (d.put l (.file bytes)) := ready.put (Disk.ne_nil_of_item? apart) bytes
  have grown := grows_keep ready' time r
  refine ⟨(Disk.keeps_put apart _).trans grown.toKeeps, grown.file l bytes self, ?_, ?_⟩
  · intro lead same
    obtain ⟨more, longer, filled⟩ := item?_keep lead self time attached loud whole
    rw [longer, Option.some.injEq, Entry.file.injEq] at same
    exact filled (List.append_cancel_left (same.trans (List.append_nil bytes).symm))
  · intro other ne old there
    exact grown.file other old (by rwa [Disk.item?_put_of_ne ne])

namespace StubOutput

def Stored (o : StubOutput) (d : Disk) (h : Handed) : Prop :=
  ∃ bytes, h.bytes? = some bytes ∧ d.read (o.path h.definition) = .ok bytes

variable {o : StubOutput} {m : Definition} {unit : StubUnit} {w v : World}

theorem grows_write (ready : Channel.Ready w.channel w.disk)
    (refused : (o.write m unit).outcome w = (.ok false, v)) :
    v.channel = w.channel ∧ Disk.Grows (Channel.log w.channel) w.disk v.disk := by
  have made : ∀ {done : Except DiskFault Unit} {middle : Disk},
      w.disk.makeDirectories o.directory = (done, middle) →
        Disk.Grows (Channel.log w.channel) w.disk middle := by
    intro done middle made
    have grown := Disk.grows_makeDirectories (Channel.log w.channel) w.disk o.directory
    rwa [made] at grown
  have noted : ∀ {d : Disk} (s : Session), Disk.Grows (Channel.log w.channel) w.disk d →
      Disk.Grows (Channel.log w.channel) w.disk ({ w with disk := d }.advance s).disk :=
    fun {d} s grown => grown.trans
      (World.grows_advance (w := { w with disk := d }) (ready.mono grown) s)
  rw [outcome_write] at refused
  rcases tried : o.place (o.path m) unit w.disk with ⟨why | _, d⟩
  · rw [tried] at refused
    cases settled : why.settle with
    | error why =>
      simp only [settled] at refused
      cases refused
    | ok text =>
      simp only [settled] at refused
      cases refused
      obtain ⟨_, placed⟩ := placed_of_place tried
      cases placed with
      | blocked failed => exact ⟨rfl, noted _ (made failed)⟩
      | unlaid done => exact ⟨rfl, noted _ (made done)⟩
      | refused done => exact ⟨rfl, noted _ (made done)⟩
      -- A torn text ends the run.
      | torn done => cases settled
  · rw [tried] at refused
    cases refused

/-- A write that succeeds leaves its text where the path of the module leads. -/
theorem rewrites_write (ready : Channel.Ready w.channel w.disk)
    (written : (o.write m unit).outcome w = (.ok true, v)) :
    v.channel = w.channel ∧ ∃ l bytes, (o.handed m unit w.disk).bytes? = some bytes ∧
      v.disk.find (o.path m) = .ok l ∧
      Disk.Rewrites (Channel.log w.channel) l bytes w.disk v.disk := by
  rw [outcome_write] at written
  rcases tried : o.place (o.path m) unit w.disk with ⟨why | _, d⟩
  · rw [tried] at written
    cases settled : why.settle <;> simp only [settled] at written <;> cases written
  · rw [tried] at written
    cases written
    rw [World.disk_advance_logged]
    obtain ⟨_, placed⟩ := placed_of_place tried
    have text := placed.text_eq
    cases placed with
    | @stored _ bytes middle l made laid opened encoded =>
      obtain ⟨found, apart⟩ := Disk.fileLocation_eq_ok opened
      have grown := Disk.grows_makeDirectories (Channel.log w.channel) w.disk o.directory
      rw [made] at grown
      have rewritten := Channel.rewrites_keep (ready.mono grown) apart bytes w.time
        (isAttached_writtenRecord m (o.path m)) (Nat.le_refl _) (Wording.whole_ofString _)
      refine ⟨rfl, l, bytes, ?_, Disk.find_of_keeps rewritten.toKeeps found,
        rewritten.after grown⟩
      rw [Handed.bytes?, handed, ← text, Option.bind_some, encoded]
      rfl

/-- A location where the stubs of a stored module are the last that were written. -/
def LastAt (path : Definition → Path) (hs : List Handed) (log : Option Location) (e : Disk)
    (l : Location) : Prop :=
  ∃ h ∈ hs, h.isStored = true ∧ ∃ bytes, h.bytes? = some bytes ∧
    e.find (path h.definition) = .ok l ∧ Disk.Holds log e l bytes ∧
    (log = some l → e.item? l ≠ some (.file bytes))

/-- What a run over all modules leaves: every file is as it was before, or as the last
module written there made it. -/
structure Generated (path : Definition → Path) (hs : List Handed) (log : Option Location)
    (d e : Disk) : Prop extends Disk.Keeps d e where
  leads : ∀ h ∈ hs, h.isStored = true → ∃ l, e.find (path h.definition) = .ok l
  places : ∀ l, LastAt path hs log e l ∨
    (∀ h ∈ hs, h.isStored = true → e.find (path h.definition) ≠ .ok l) ∧
      ∀ bytes, d.item? l = some (.file bytes) → Disk.Holds log e l bytes

section

variable {path : Definition → Path} {h : Handed} {hs : List Handed} {log : Option Location}
  {d e f : Disk}

theorem LastAt.cons {l : Location} (last : LastAt path hs log e l) :
    LastAt path (h :: hs) log e l := by
  obtain ⟨k, mem, rest⟩ := last
  exact ⟨k, List.mem_cons_of_mem h mem, rest⟩

theorem Generated.nil (path : Definition → Path) (log : Option Location) (d : Disk) :
    Generated path [] log d d :=
  ⟨Disk.Keeps.refl d, nofun, fun _ => .inr ⟨nofun, fun _ => Disk.Holds.of_item?⟩⟩

theorem Generated.skip (refused : h.isStored = false) (grown : Disk.Grows log d e)
    (rest : Generated path hs log e f) : Generated path (h :: hs) log d f := by
  have other : ∀ {k}, k ∈ h :: hs → k.isStored = true → k ∈ hs := by
    intro k mem stored
    rcases List.mem_cons.mp mem with rfl | mem
    · exact nomatch refused.symm.trans stored
    · exact mem
  refine ⟨grown.toKeeps.trans rest.toKeeps,
    fun k mem stored => rest.leads k (other mem stored) stored, fun l => ?_⟩
  rcases rest.places l with last | ⟨away, same⟩
  · exact .inl last.cons
  · exact .inr ⟨fun k mem stored => away k (other mem stored) stored,
      fun bytes there => (grown.file l bytes there).mono same⟩

theorem Generated.write {l : Location} {bytes : List UInt8} (stored : h.isStored = true)
    (text : h.bytes? = some bytes) (found : e.find (path h.definition) = .ok l)
    (rewritten : Disk.Rewrites log l bytes d e) (rest : Generated path hs log e f) :
    Generated path (h :: hs) log d f := by
  have leads := Disk.find_of_keeps rest.toKeeps found
  refine ⟨rewritten.toKeeps.trans rest.toKeeps, ?_, fun other => ?_⟩
  · exact List.forall_mem_cons.mpr ⟨fun _ => ⟨l, leads⟩, rest.leads⟩
  · rcases rest.places other with last | ⟨away, same⟩
    · exact .inl last.cons
    · by_cases here : other = l
      · subst here
        refine .inl ⟨h, List.mem_cons_self, stored, bytes, text, leads, ?_, ?_⟩
        · exact rewritten.target.mono same
        · exact fun lead => rewritten.target.ne_of_ne (rewritten.noted lead) same
      · refine .inr ⟨List.forall_mem_cons.mpr ⟨fun _ => ?_, away⟩, ?_⟩
        · rw [leads]
          exact fun same => here (Except.ok.inj same).symm
        · exact fun bytes there => (rewritten.file other here bytes there).mono same

end

theorem generated_handing {ms : List Definition} {hs : List Handed}
    (ready : Channel.Ready w.channel w.disk) (done : (o.handing ms).outcome w = (.ok hs, v)) :
    Generated o.path hs (Channel.log w.channel) w.disk v.disk := by
  induction ms generalizing o w hs with
  | nil =>
    cases done
    exact Generated.nil _ _ _
  | cons m ms ih =>
    obtain ⟨unit, x, y, others, preparing, writing, remaining, rfl⟩ :=
      handing_cons_eq_ok_iff.mp done
    obtain ⟨session, -, rfl⟩ := Run.act_eq_ok preparing
    -- Warnings of the preparation may reach the log file before the stubs are written.
    have grown := World.grows_advance ready session
    have opened : Channel.Ready (w.advance session).channel (w.advance session).disk :=
      ready.mono grown
    cases stored : (o.handed m unit (w.advance session).disk).isStored with
    | false =>
      rw [stored] at writing
      obtain ⟨channel, also⟩ := grows_write opened writing
      have rest := ih (channel ▸ opened.mono also) remaining
      rw [path_next, channel] at rest
      exact rest.skip stored (grown.trans also)
    | true =>
      rw [stored] at writing
      obtain ⟨channel, l, bytes, text, found, rewritten⟩ := rewrites_write opened writing
      have rest := ih (channel ▸ opened.rewritten rewritten) remaining
      rw [path_next, channel] at rest
      exact rest.write stored text found (rewritten.after grown)

theorem mem_storedPaths {hs : List Handed} {p : Path} :
    p ∈ o.storedPaths hs ↔ ∃ h ∈ hs, h.isStored = true ∧ o.path h.definition = p := by
  simp only [storedPaths, List.mem_map, List.mem_filter, and_assoc]

structure Returned (o : StubOutput) (ms : List Definition) (w : World) (written : List Path)
    (v : World) (hs : List Handed) : Prop where
  handed : (o.handing ms).outcome w = (.ok hs, v)
  modules : hs.map Handed.definition = ms
  reported : o.storedPaths hs = written
  /-- By the packaged template each text is the one of the stubs of its module. -/
  texts : o.templates = none → ∀ h ∈ hs, ∀ text, h.text = some text →
    ∃ unit, h.definition.unit = .ok unit ∧ text = unit.render

theorem eq_render_of_packaged (packaged : o.templates = none) {d : Disk} {text : Wording}
    (shown : o.text? d unit = some text) : text = unit.render := by
  rw [text?] at shown
  split at shown
  · cases shown
  · rw [render_of_packaged packaged] at shown
    exact (Option.some.inj shown).symm

theorem texts_of_packaged (packaged : o.templates = none) {ms : List Definition}
    {hs : List Handed} (done : (o.handing ms).outcome w = (.ok hs, v)) :
    ∀ h ∈ hs, ∀ text, h.text = some text →
      ∃ unit, h.definition.unit = .ok unit ∧ text = unit.render := by
  induction ms generalizing w hs with
  | nil =>
    cases done
    exact nofun
  | cons m ms ih =>
    obtain ⟨unit, x, y, others, preparing, -, remaining, rfl⟩ := handing_cons_eq_ok_iff.mp done
    obtain ⟨session, prepared, -⟩ := Run.act_eq_ok preparing
    rw [next_of_packaged packaged] at remaining
    refine List.forall_mem_cons.mpr ⟨fun text shown => ?_, ih remaining⟩
    exact ⟨unit, (prepare_eq_ok prepared).1, eq_render_of_packaged packaged shown⟩

theorem returned_of_generate {ms : List Definition} {written : List Path}
    (done : (o.generate ms).outcome w = (.ok written, v)) : ∃ hs, o.Returned ms w written v hs := by
  obtain ⟨hs, handed, reported⟩ := generate_eq_ok_iff.mp done
  exact ⟨hs, handed, (handing_eq_ok handed).1, reported,
    fun packaged => texts_of_packaged packaged handed⟩

/-- The texts of all reported modules are on the disk exactly when modules that are
written to one place have the same text and no module is written to the log file. -/
theorem stored_iff_of_generate {ms : List Definition} {written : List Path}
    (ready : Channel.Ready w.channel w.disk)
    (done : (o.generate ms).outcome w = (.ok written, v)) :
    ∃ hs, o.Returned ms w written v hs ∧
      ((∀ h ∈ hs, o.path h.definition ∈ written → o.Stored v.disk h) ↔
        (∀ h ∈ hs, ∀ k ∈ hs, o.path h.definition ∈ written → o.path k.definition ∈ written →
          v.disk.find (o.path h.definition) = v.disk.find (o.path k.definition) →
          h.text = k.text) ∧
        (∀ h ∈ hs, o.path h.definition ∈ written → ∀ l, Channel.log w.channel = some l →
          v.disk.find (o.path h.definition) ≠ .ok l)) := by
  obtain ⟨hs, returned⟩ := returned_of_generate done
  have generated := generated_handing ready returned.handed
  have leads : ∀ p ∈ written, ∃ l, v.disk.find p = .ok l := by
    intro p mem
    rw [← returned.reported] at mem
    obtain ⟨h, listed, stored, rfl⟩ := mem_storedPaths.mp mem
    exact generated.leads h listed stored
  have reports : ∀ h ∈ hs, h.isStored = true → o.path h.definition ∈ written := by
    intro h mem stored
    rw [← returned.reported]
    exact mem_storedPaths.mpr ⟨h, mem, stored, rfl⟩
  refine ⟨hs, returned, ?_, ?_⟩
  · intro right
    refine ⟨fun h hm k km rh rk same => ?_, fun h hm rh l lead found => ?_⟩
    · obtain ⟨first, hasFirst, firstRead⟩ := right h hm rh
      obtain ⟨second, hasSecond, secondRead⟩ := right k km rk
      obtain ⟨l, found⟩ := leads _ rh
      have there := (Disk.read_eq_ok_iff found).mp firstRead
      rw [(Disk.read_eq_ok_iff (same.symm.trans found)).mp secondRead, Option.some.injEq,
        Entry.file.injEq] at there
      subst there
      obtain ⟨text, shown, encoded⟩ := Handed.bytes?_eq_some_iff.mp hasFirst
      obtain ⟨other, shown', encoded'⟩ := Handed.bytes?_eq_some_iff.mp hasSecond
      rw [shown, shown', Wording.encode_inj encoded encoded']
    · rcases generated.places l with ⟨k, km, stored, last, hasLast, leads, -, noted⟩ | ⟨away, -⟩
      · obtain ⟨bytes, hasBytes, held⟩ := right k km (reports k km stored)
        rw [hasLast] at hasBytes
        cases hasBytes
        -- The record of the write follows the stubs in the log file.
        exact noted lead ((Disk.read_eq_ok_iff leads).mp held)
      · rw [← returned.reported] at rh
        obtain ⟨k, km, stored, path⟩ := mem_storedPaths.mp rh
        exact away k km stored (path ▸ found)
  · rintro ⟨same, apart⟩ h hm rh
    obtain ⟨l, found⟩ := leads _ rh
    rcases generated.places l with ⟨k, km, stored, last, hasLast, leads, held, -⟩ | ⟨away, -⟩
    · obtain ⟨more, there, quiet⟩ := held
      rw [quiet fun lead => apart h hm rh l lead found, List.append_nil] at there
      have texts := same h hm k km rh (reports k km stored) (found.trans leads.symm)
      refine ⟨last, ?_, (Disk.read_eq_ok_iff found).mpr there⟩
      rw [Handed.bytes?, texts]
      exact hasLast
    · rw [← returned.reported] at rh
      obtain ⟨k, km, stored, path⟩ := mem_storedPaths.mp rh
      exact absurd (path ▸ found) (away k km stored)

def moduleWith (name function : String) : Definition :=
  { name := name, functions := [⟨some function, {}⟩] }

def mocks : StubOutput := { directory := ⟨.relative, ["mocks"]⟩ }

def runOver (first second : Definition) : Except Abort (List Path) × World :=
  (mocks.generate [first, second]).outcome
    { disk := { entries := [(["run.log"], .file [])], here := [] }
      channel := some ⟨false, some ["run.log"]⟩ }

theorem stored_of_two_names :
    ∃ hs v, mocks.Returned [moduleWith "M" "f", moduleWith "N" "g"]
        { disk := { entries := [(["run.log"], .file [])], here := [] }
          channel := some ⟨false, some ["run.log"]⟩ }
        [⟨.relative, ["mocks", "M.ts"]⟩, ⟨.relative, ["mocks", "N.ts"]⟩] v hs ∧
      ∀ h ∈ hs, mocks.Stored v.disk h := by
  have reported : (runOver (moduleWith "M" "f") (moduleWith "N" "g")).1.toOption =
      some [⟨.relative, ["mocks", "M.ts"]⟩, ⟨.relative, ["mocks", "N.ts"]⟩] := by
    decide +kernel
  have ready : Channel.Ready (some ⟨false, some ["run.log"]⟩)
      { entries := [(["run.log"], .file [])], here := [] } := by
    rintro l lead
    cases lead
    exact ⟨[], rfl⟩
  have ran : runOver (moduleWith "M" "f") (moduleWith "N" "g") =
      (.ok [⟨.relative, ["mocks", "M.ts"]⟩, ⟨.relative, ["mocks", "N.ts"]⟩],
        (runOver (moduleWith "M" "f") (moduleWith "N" "g")).2) :=
    Prod.ext (eq_ok_of_toOption reported) rfl
  have first : (runOver (moduleWith "M" "f") (moduleWith "N" "g")).2.disk.find
      (mocks.path (moduleWith "M" "f")) = .ok ["mocks", "M.ts"] :=
    eq_ok_of_toOption (by decide +kernel)
  have second : (runOver (moduleWith "M" "f") (moduleWith "N" "g")).2.disk.find
      (mocks.path (moduleWith "N" "g")) = .ok ["mocks", "N.ts"] :=
    eq_ok_of_toOption (by decide +kernel)
  generalize (runOver (moduleWith "M" "f") (moduleWith "N" "g")).2 = v at ran first second
  obtain ⟨hs, returned, all⟩ := stored_iff_of_generate ready ran
  obtain ⟨a, _, rfl, named, b, _, rfl, other, none⟩ : ∃ a as, hs = a :: as ∧
      a.definition = moduleWith "M" "f" ∧ ∃ b bs, as = b :: bs ∧
      b.definition = moduleWith "N" "g" ∧ bs = [] := by
    obtain ⟨a, as, rfl, named, rest⟩ := List.map_eq_cons_iff.mp returned.modules
    obtain ⟨b, bs, rfl, other, rest⟩ := List.map_eq_cons_iff.mp rest
    exact ⟨a, _, rfl, named, b, bs, rfl, other, List.map_eq_nil_iff.mp rest⟩
  subst none
  rw [← named] at first
  rw [← other] at second
  have reports : ∀ h ∈ [a, b], mocks.path h.definition ∈
      [(⟨.relative, ["mocks", "M.ts"]⟩ : Path), ⟨.relative, ["mocks", "N.ts"]⟩] := by
    simp only [List.forall_mem_cons, named, other]
    exact ⟨by decide +kernel, by decide +kernel, nofun⟩
  refine ⟨[a, b], v, returned, fun h mem => all.mpr ⟨?_, ?_⟩ h mem (reports h mem)⟩
  · simp only [List.mem_cons, List.not_mem_nil, or_false]
    rintro h (rfl | rfl) k (rfl | rfl) - - same
    · rfl
    · rw [first, second] at same
      exact absurd (Except.ok.inj same) (by decide)
    · rw [first, second] at same
      exact absurd (Except.ok.inj same) (by decide)
    · rfl
  · simp only [List.mem_cons, List.not_mem_nil, or_false]
    rintro h (rfl | rfl) - l lead
    all_goals
      cases lead
      intro same
    · exact absurd (Except.ok.inj (first.symm.trans same)) (by decide)
    · exact absurd (Except.ok.inj (second.symm.trans same)) (by decide)

/-- Of two modules with one name the first is reported, but its stubs are lost. -/
theorem stub_lost_to_namesake :
    (runOver (moduleWith "M" "f") (moduleWith "M" "g")).1.toOption =
        some [⟨.relative, ["mocks", "M.ts"]⟩, ⟨.relative, ["mocks", "M.ts"]⟩] ∧
      let e := (runOver (moduleWith "M" "f") (moduleWith "M" "g")).2.disk
      ¬ ∃ bytes, (moduleWith "M" "f").bytes? (mocks.render e) = some bytes ∧
        e.read (mocks.path (moduleWith "M" "f")) = .ok bytes := by
  refine ⟨by decide +kernel, ?_⟩
  rintro e ⟨bytes, text, stored⟩
  have differ : (moduleWith "M" "f").bytes? (mocks.render e) ≠
      (e.read (mocks.path (moduleWith "M" "f"))).toOption := by
    decide +kernel
  rw [text, stored] at differ
  exact differ rfl

end StubOutput

end ModuleStubs
