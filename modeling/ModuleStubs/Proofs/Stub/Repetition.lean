import ModuleStubs.Proofs.Disk.MakeDirectories
import ModuleStubs.Proofs.Stub.Overwriting

/-! Writing the same stubs once more. The first run leaves a disk on which the output directory
is there, or cannot be made; in both cases a second run does the same writes with the same
success, and every file ends as it was. A project's own template must be none of the files. -/

namespace ModuleStubs

structure World.Retains (w v : World) : Prop where
  channel : v.channel = w.channel
  memo : v.session.memo = w.session.memo

namespace World

variable {w v u : World}

theorem Retains.trans (h : w.Retains v) (k : v.Retains u) : w.Retains u :=
  ⟨k.channel.trans h.channel, k.memo.trans h.memo⟩

theorem retains_advance {s : Session} (memo : s.memo = w.session.memo) : w.Retains (w.advance s) :=
  ⟨rfl, memo⟩

end World

namespace StubOutput

variable {o now : StubOutput} {m : Definition} {ms : List Definition} {d e f : Disk} {w v : World}
  {unit : StubUnit}

theorem outcome_prepare (hasUnit : m.unit = .ok unit) (s : Session) :
    ∃ t, (prepare m).outcome s = (.ok unit, t) ∧ t.memo = s.memo := by
  obtain ⟨t, warned, memo, -⟩ := Action.outcome_warnings m.aliasWarnings s
  refine ⟨t, ?_, memo⟩
  rw [prepare, Action.outcome_bind_of_ok warned, hasUnit]
  rfl

theorem act_prepare (hasUnit : m.unit = .ok unit) (ready : Channel.Ready w.channel w.disk) :
    ∃ v, (Run.act (prepare m)).outcome w = (.ok unit, v) ∧ w.Retains v ∧
      Disk.Relogged (Channel.log w.channel) w.disk v.disk := by
  obtain ⟨t, prepared, memo⟩ := outcome_prepare hasUnit w.session
  refine ⟨w.advance t, ?_, World.retains_advance memo, World.relogged_advance ready t⟩
  rw [Run.outcome_act, prepared]

theorem act_prepare_eq_ok (ready : Channel.Ready w.channel w.disk)
    (preparing : (Run.act (prepare m)).outcome w = (.ok unit, v)) :
    m.unit = .ok unit ∧ w.Retains v ∧ Disk.Relogged (Channel.log w.channel) w.disk v.disk := by
  obtain ⟨s, prepared, -⟩ := Run.act_eq_ok preparing
  have hasUnit := (prepare_eq_ok prepared).1
  obtain ⟨other, same, kept, logged⟩ := act_prepare hasUnit ready
  rw [preparing] at same
  cases same
  exact ⟨hasUnit, kept, logged⟩

def target? (o : StubOutput) (d : Disk) (m : Definition) : Option Location :=
  (d.fileLocation (o.path m)).toOption

theorem target?_eq_some_iff {l : Location} :
    o.target? d m = some l ↔ d.fileLocation (o.path m) = .ok l := by
  rw [target?]
  cases d.fileLocation (o.path m) <;> simp [Except.toOption]

theorem target?_congr (same : Disk.SameDirectories d e) (o : StubOutput) (m : Definition) :
    o.target? e m = o.target? d m := by
  ext l
  rw [target?_eq_some_iff, target?_eq_some_iff, Disk.fileLocation_ok_congr same]

def written? (o : StubOutput) (d : Disk) (m : Definition) : Option (Location × List UInt8) :=
  (o.target? d m).bind fun l => (m.bytes? (o.render d)).map (l, ·)

theorem written?_eq_some_iff {l : Location} {bytes : List UInt8} :
    o.written? d m = some (l, bytes) ↔
    o.target? d m = some l ∧ m.bytes? (o.render d) = some bytes := by
  simp [written?, Option.bind_eq_some_iff]

def reported (o : StubOutput) (d : Disk) (ms : List Definition) : List Path :=
  (ms.filter fun m => (o.written? d m).isSome).map o.path

def stored (o : StubOutput) (d : Disk) : List Definition → Location → Option (List UInt8)
  | [], _ => none
  | m :: ms, l => (o.stored d ms l).or
      ((o.written? d m).bind fun last => if last.1 = l then some last.2 else none)

theorem reported_cons (o : StubOutput) (d : Disk) (m : Definition) (ms : List Definition) :
    o.reported d (m :: ms) =
      if (o.written? d m).isSome then o.path m :: o.reported d ms else o.reported d ms := by
  rw [reported, List.filter_cons]
  split_ifs <;> rfl

def entryAfter (last : Option (Location × List UInt8)) (before : Location → Option Entry)
    (l : Location) : Option Entry :=
  match last with
  | none => before l
  | some last => if last.1 = l then some (.file last.2) else before l

theorem entryAfter_again {last : Option (Location × List UInt8)}
    {before after : Location → Option Entry} {l : Location}
    (left : after l = entryAfter last before l) : entryAfter last after l = after l := by
  cases last with
  | none => rfl
  | some last =>
    rw [entryAfter] at left ⊢
    split_ifs at left ⊢
    · exact left.symm
    · rfl

theorem stored_cons (o : StubOutput) (d : Disk) (m : Definition) (ms : List Definition)
    (l : Location) (before : Location → Option Entry) :
    ((o.stored d (m :: ms) l).map Entry.file).or (before l) =
      ((o.stored d ms l).map Entry.file).or (entryAfter (o.written? d m) before l) := by
  rw [stored]
  cases o.stored d ms l with
  | some bytes => rfl
  | none =>
    cases o.written? d m with
    | none => rfl
    | some last =>
      rw [entryAfter, Option.bind_some]
      split_ifs <;> rfl

/-- On such a disk the stubs of a module are written or refused, and the template of the project
stays what it is. -/
structure Smooth (o : StubOutput) (d : Disk) (m : Definition) (unit : StubUnit) : Prop where
  hasUnit : m.unit = .ok unit
  laid : ∀ message, o.render d unit ≠ .error (.broken message)
  clean : ∀ text, o.render d unit = .ok text → Disk.hasNull (o.path m) = false
  whole : ∀ text, o.render d unit = .ok text → (o.target? d m).isSome = true → text.Whole
  apart : ∀ t l, o.templates = some t → d.find t.path = .ok l →
    ∀ bytes, o.written? d m ≠ some (l, bytes)

def Unlogged (o : StubOutput) (log : Option Location) (d : Disk) : Prop :=
  ∀ t l, o.templates = some t → d.find t.path = .ok l → log ≠ some l

section

variable {log : Option Location} (same : Disk.SameDirectories d e) (alike : o.Alike d e)

include same alike

theorem written?_congr (m : Definition) : o.written? e m = o.written? d m := by
  rw [written?, written?, target?_congr same, alike.render_eq]

theorem reported_congr (ms : List Definition) : o.reported e ms = o.reported d ms := by
  simp only [reported, written?_congr same alike]

theorem stored_congr (ms : List Definition) (l : Location) :
    o.stored e ms l = o.stored d ms l := by
  induction ms with
  | nil => rfl
  | cons m ms ih => rw [stored, stored, ih, written?_congr same alike]

theorem Smooth.congr (smooth : o.Smooth d m unit) : o.Smooth e m unit := by
  obtain ⟨hasUnit, laid, clean, whole, apart⟩ := smooth
  rw [← alike.render_eq] at laid clean whole
  refine ⟨hasUnit, laid, clean, ?_, fun t l own found bytes => ?_⟩
  · rwa [target?_congr same]
  · rw [written?_congr same alike]
    exact apart t l own ((Disk.find_eq_ok_iff same).mp found) bytes

end

theorem Unlogged.congr {log : Option Location} (same : Disk.SameDirectories d e)
    (unlogged : o.Unlogged log d) : o.Unlogged log e :=
  fun t l own found => unlogged t l own ((Disk.find_eq_ok_iff same).mp found)

theorem Unlogged.alike {log : Option Location} (unlogged : o.Unlogged log d)
    (same : Disk.Relogged log d e) : o.Alike d e :=
  fun t own => Templates.alike_of_relogged same fun l found => unlogged t l own found

theorem write_of_not_made {why : DiskFault} (ready : Channel.Ready w.channel w.disk)
    (failed : w.disk.makeDirectories o.directory = (.error why, d))
    (clean : Disk.hasNull o.directory = false) (m : Definition) (unit : StubUnit) :
    ∃ v, (o.write m unit).outcome w = (.ok false, v) ∧ w.Retains v ∧
      Disk.Relogged (Channel.log w.channel) d v.disk := by
  have grown := Disk.grows_makeDirectories (Channel.log w.channel) w.disk o.directory
  rw [failed] at grown
  rw [outcome_write, (Placed.blocked failed : o.Placed (o.path m) unit _ _ _ _).place_eq]
  cases why with
  | nullCharacter =>
    have bad := Disk.makeDirectories_null_iff.mp (congrArg Prod.fst failed)
    rw [clean] at bad
    cases bad
  | refused why subject =>
    exact ⟨_, rfl, ⟨rfl, rfl⟩,
      World.relogged_advance (w := { w with disk := d }) (ready.mono grown) _⟩

theorem next_of_not_made {why : DiskFault}
    (failed : d.makeDirectories o.directory = (.error why, e)) : o.next d = o := by
  rw [next, failed]

theorem next_of_made (made : d.makeDirectories o.directory = (.ok (), e)) :
    o.next d = o.settled e := by
  rw [next, made]

/-- Making the directory first makes no difference. -/
theorem write_of_made (made : w.disk.makeDirectories o.directory = (.ok (), d))
    (m : Definition) (unit : StubUnit) :
    (o.write m unit).outcome w = (o.write m unit).outcome { w with disk := d } := by
  have again := (Disk.hasDirectory_of_makeDirectories made).makeDirectories
  have same : o.place (o.path m) unit w.disk = o.place (o.path m) unit d := by
    rw [place, place, made, again]
  rw [outcome_write, outcome_write, same]

theorem bytes?_of_unit (hasUnit : m.unit = .ok unit) (layout : Layout) :
    m.bytes? layout = (layout unit).toOption.bind fun text => text.encode.toOption := by
  rw [Definition.bytes?, hasUnit]
  rfl

/-- A moment of a run at which the directories, among them the output directory, and the template
of the project are what they are on the first disk. -/
structure Midway (o now : StubOutput) (d e : Disk) : Prop where
  amid : o.Amid d now
  alike : o.Alike d e
  same : Disk.SameDirectories d e
  has : d.HasDirectory o.directory

theorem Midway.start (has : d.HasDirectory o.directory) : o.Midway o d d :=
  ⟨.inl rfl, .refl o d, .refl d, has⟩

theorem Midway.made (midway : o.Midway now d e) :
    e.makeDirectories now.directory = (.ok (), e) := by
  rw [midway.amid.directory]
  exact (midway.has.mono midway.same.keeps).makeDirectories

theorem Midway.next (midway : o.Midway now d e) : o.Amid d (now.next e) := by
  refine midway.amid.next ?_
  rw [← midway.amid.directory, midway.made]
  exact midway.alike

theorem Midway.relogged {log : Option Location} (midway : o.Midway now d e)
    (unlogged : o.Unlogged log d) (told : Disk.Relogged log e f) : o.Midway now d f :=
  ⟨midway.amid, midway.alike.trans ((unlogged.congr midway.same).alike told),
    midway.same.trans told.sameDirectories, midway.has⟩

/-- How the write of a module ends where the output directory is, told by the first disk. -/
inductive Landed (o : StubOutput) (d : Disk) (m : Definition) (unit : StubUnit) (e : Disk) :
    Except WriteFault Unit → Disk → Prop
  | unlaid {why : TemplateFault} (failed : o.render d unit = .error why)
    (unwritten : o.written? d m = none) : Landed o d m unit e (.error (.template why)) e
  | refused {text : Wording} {why : DiskFault} (laid : o.render d unit = .ok text)
    (failed : e.fileLocation (o.path m) = .error why) (nowhere : o.target? d m = none) :
      Landed o d m unit e (.error (.disk why)) e
  | torn {text : Wording} {why : Torn} {l : Location} (laid : o.render d unit = .ok text)
    (there : o.target? d m = some l) (torn : text.encode = .error why) :
      Landed o d m unit e (.error (.torn why)) (e.put l (.file []))
  | stored {text : Wording} {bytes : List UInt8} {l : Location} (laid : o.render d unit = .ok text)
    (opened : e.fileLocation (o.path m) = .ok l) (encoded : text.encode = .ok bytes)
    (last : o.written? d m = some (l, bytes)) :
      Landed o d m unit e (.ok ()) (e.put l (.file bytes))

theorem Midway.landed (midway : o.Midway now d e) (hasUnit : m.unit = .ok unit)
    {result : Except WriteFault Unit}
    (placing : now.place (now.path m) unit e = (result, f)) : o.Landed d m unit e result f := by
  have made := midway.made
  have layout := midway.amid.render midway.alike
  have target := target?_congr midway.same o m
  obtain ⟨text, placed⟩ := placed_of_place placing
  rw [midway.amid.path m] at placed
  cases placed with
  | blocked failed =>
    rw [made] at failed
    cases failed
  | unlaid done failed =>
    rw [made] at done
    cases done
    rw [layout] at failed
    refine .unlaid failed ?_
    rw [written?, bytes?_of_unit hasUnit, failed]
    cases o.target? d m <;> rfl
  | refused done laid failed =>
    rw [made] at done
    cases done
    refine .refused (layout ▸ laid) failed ?_
    rw [← target, target?, failed]
    rfl
  | torn done laid opened torn =>
    rw [made] at done
    cases done
    refine .torn (layout ▸ laid) ?_ torn
    rw [← target, target?_eq_some_iff, opened]
  | stored done laid opened encoded =>
    rw [made] at done
    cases done
    rw [layout] at laid
    refine .stored laid opened encoded (written?_eq_some_iff.mpr ⟨?_, ?_⟩)
    · rw [← target, target?_eq_some_iff, opened]
    · rw [bytes?_of_unit hasUnit, laid, Except.toOption, Option.bind_some, encoded]
      rfl

/-- What a run leads to in a later world, with the entries of the disk that it leaves. -/
structure Reaches (o : StubOutput) (d : Disk) (w v : World) (entries : Location → Option Entry) :
    Prop where
  retains : w.Retains v
  ready : Channel.Ready w.channel v.disk
  alike : o.Alike d v.disk
  same : Disk.SameDirectories d v.disk
  items : ∀ l, Channel.log w.channel ≠ some l → v.disk.item? l = entries l

section

variable (midway : o.Midway now d w.disk)
include midway

section

variable (ready : Channel.Ready w.channel w.disk) (unlogged : o.Unlogged (Channel.log w.channel) d)
  {s : Session} (memo : s.memo = w.session.memo)
include ready unlogged memo

/-- A write that is refused leaves the disk to the log file. -/
theorem Midway.reaches_of_told : o.Reaches d w (w.advance s) w.disk.item? := by
  have told := World.relogged_advance ready s
  have later := midway.relogged unlogged told
  exact ⟨World.retains_advance memo, ready.relogged told, later.alike, later.same, told.item⟩

theorem Midway.reaches_of_stored (smooth : o.Smooth d m unit) {l : Location} {bytes : List UInt8}
    (opened : w.disk.fileLocation (o.path m) = .ok l) (last : o.written? d m = some (l, bytes)) :
    o.Reaches d w ({ w with disk := w.disk.put l (.file bytes) }.advance s)
      (entryAfter (some (l, bytes)) w.disk.item?) := by
  obtain ⟨-, apart⟩ := Disk.fileLocation_eq_ok opened
  have inner := Disk.ne_nil_of_item? apart
  have kept := ready.put inner bytes
  have put := Disk.sameDirectories_put apart bytes
  have told := World.relogged_advance (w := { w with disk := w.disk.put l (.file bytes) }) kept s
  have alike : o.Alike w.disk (w.disk.put l (.file bytes)) := fun t own =>
    Templates.alike_put apart fun found =>
      smooth.apart t l own ((Disk.find_eq_ok_iff midway.same).mp found) bytes last
  have middle : o.Midway now d (w.disk.put l (.file bytes)) :=
    ⟨midway.amid, midway.alike.trans alike, midway.same.trans put, midway.has⟩
  have later := middle.relogged unlogged told
  refine ⟨⟨rfl, memo⟩, kept.relogged told, later.alike, later.same, fun other off => ?_⟩
  refine (told.item other off).trans ?_
  rw [entryAfter]
  split_ifs with here
  · rw [← here]
    exact Disk.item?_put_self inner _
  · exact Disk.item?_put_of_ne (Ne.symm here) _

end

/-- With the output directory a module is written if it can be, and changes its file only. -/
theorem write_of_directory (ready : Channel.Ready w.channel w.disk)
    (unlogged : o.Unlogged (Channel.log w.channel) d) (smooth : o.Smooth d m unit) :
    ∃ v, (now.write m unit).outcome w = (.ok (o.written? d m).isSome, v) ∧
      o.Reaches d w v (entryAfter (o.written? d m) w.disk.item?) := by
  rcases placing : now.place (now.path m) unit w.disk with ⟨result, e⟩
  rw [outcome_write, placing]
  cases midway.landed smooth.hasUnit placing with
  | @unlaid why failed unwritten =>
    rw [unwritten]
    cases why with
    | broken message => exact absurd failed (smooth.laid message)
    | refused message => exact ⟨_, rfl, midway.reaches_of_told ready unlogged rfl⟩
  | @refused _ why laid failed nowhere =>
    have unwritten : o.written? d m = none := by
      rw [written?, nowhere]
      rfl
    rw [unwritten]
    cases why with
    | nullCharacter =>
      exact nomatch (smooth.clean _ laid).symm.trans (Disk.fileLocation_null_iff.mp failed)
    | refused why subject => exact ⟨_, rfl, midway.reaches_of_told ready unlogged rfl⟩
  | torn laid there torn =>
    have isThere : (o.target? d m).isSome = true := by
      rw [there]
      rfl
    obtain ⟨s, rfl⟩ := smooth.whole _ laid isThere
    rw [Wording.encode_ofString] at torn
    cases torn
  | stored laid opened encoded last =>
    rw [last]
    refine ⟨_, rfl, midway.reaches_of_stored ready unlogged ?_ smooth opened last⟩
    rfl

theorem smooth_of_write (hasUnit : m.unit = .ok unit) {here : Bool}
    (writing : (now.write m unit).outcome w = (.ok here, v))
    (spared : here = true → ∀ t l, o.templates = some t → d.find t.path = .ok l →
      d.find (o.path m) ≠ .ok l) : o.Smooth d m unit := by
  rcases placing : now.place (now.path m) unit w.disk with ⟨result, e⟩
  rw [outcome_write, placing] at writing
  cases midway.landed hasUnit placing with
  | @unlaid why failed unwritten =>
    cases why with
    | broken message => cases writing
    | refused message =>
      constructor
      · exact hasUnit
      · simp [failed]
      · simp [failed]
      · simp [failed]
      · simp [unwritten]
  | refused laid failed nowhere =>
    constructor
    · exact hasUnit
    · simp [laid]
    · intro _ _
      rw [← Bool.not_eq_true]
      intro bad
      rw [Disk.fileLocation_null_iff.mpr bad] at failed
      cases failed
      cases writing
    · simp [nowhere]
    · simp [written?, nowhere]
  | torn laid there torn => cases writing
  | stored laid opened encoded last =>
    obtain ⟨found, -⟩ := Disk.fileLocation_eq_ok opened
    constructor
    · exact hasUnit
    · simp [laid]
    · intro _ _
      rw [← Bool.not_eq_true]
      intro bad
      rw [Disk.find, if_pos bad] at found
      cases found
    · intro other shown _
      cases laid.symm.trans shown
      exact Wording.encode_isOk_iff.mp (by rw [encoded]; rfl)
    · intro t l own lead bytes again
      cases writing
      cases last.symm.trans again
      exact spared rfl t _ own lead ((Disk.find_eq_ok_iff midway.same).mp found)

end

theorem generate_of_stuck {why : DiskFault}
    (stuck : d.makeDirectories o.directory = (.error why, d))
    (clean : Disk.hasNull o.directory = false) (units : ∀ m ∈ ms, ∃ unit, m.unit = .ok unit)
    (ready : Channel.Ready w.channel w.disk)
    (same : Disk.Relogged (Channel.log w.channel) d w.disk) :
    ∃ v, (o.generate ms).outcome w = (.ok [], v) ∧ w.Retains v ∧
      Disk.Relogged (Channel.log w.channel) d v.disk := by
  induction ms generalizing w with
  | nil => exact ⟨w, rfl, ⟨rfl, rfl⟩, same⟩
  | cons m ms ih =>
    obtain ⟨⟨unit, hasUnit⟩, others⟩ := List.forall_mem_cons.mp units
    obtain ⟨w₁, prepared, kept₁, logged⟩ := act_prepare hasUnit ready
    have ready₁ : Channel.Ready w₁.channel w₁.disk := kept₁.channel ▸ ready.relogged logged
    have same₁ := same.trans logged
    obtain ⟨result, later⟩ := same₁.makeDirectories o.directory
    rw [stuck] at result later
    have stuck₁ : w₁.disk.makeDirectories o.directory =
      (.error why, (w₁.disk.makeDirectories o.directory).2) := Prod.ext result rfl
    obtain ⟨w₂, refused, kept₂, made⟩ := write_of_not_made ready₁ stuck₁ clean m unit
    rw [kept₁.channel] at made
    have same₂ := later.trans made
    have kept := kept₁.trans kept₂
    have ready₂ : Channel.Ready w₂.channel w₂.disk := by
      rw [kept.channel]
      exact ready.relogged (same.symm.trans same₂)
    obtain ⟨v, rest, kept₃, last⟩ := ih others ready₂ (by rw [kept.channel]; exact same₂)
    rw [← next_of_not_made stuck₁] at rest
    exact ⟨v, generate_cons_eq_ok_iff.mpr ⟨unit, w₁, _, w₂, _, prepared, refused, rest, rfl⟩,
      kept.trans kept₃, by rwa [kept.channel] at last⟩

/-- Where the output directory is, every module that can be written is, and each file ends as
the last of them leaves it. -/
theorem generate_of_directory (midway : o.Midway now d w.disk)
    (ready : Channel.Ready w.channel w.disk) (unlogged : o.Unlogged (Channel.log w.channel) d)
    (smooth : ∀ m ∈ ms, ∃ unit, o.Smooth d m unit) :
    ∃ v, (now.generate ms).outcome w = (.ok (o.reported d ms), v) ∧
      o.Reaches d w v fun l => ((o.stored d ms l).map Entry.file).or (w.disk.item? l) := by
  induction ms generalizing now w with
  | nil =>
    refine ⟨w, rfl, ⟨rfl, rfl⟩, ready, midway.alike, midway.same, fun l _ => ?_⟩
    rw [stored, Option.map_none, Option.none_or]
  | cons m ms ih =>
    obtain ⟨⟨unit, smoothHere⟩, smooth'⟩ := List.forall_mem_cons.mp smooth
    obtain ⟨w₁, prepared, kept₁, logged⟩ := act_prepare smoothHere.hasUnit ready
    have ready₁ : Channel.Ready w₁.channel w₁.disk := kept₁.channel ▸ ready.relogged logged
    have midway₁ := midway.relogged unlogged logged
    obtain ⟨w₂, written, first⟩ :=
      write_of_directory midway₁ ready₁ (kept₁.channel ▸ unlogged) smoothHere
    have kept := kept₁.trans first.retains
    obtain ⟨v, rest, later⟩ :=
      ih ⟨midway₁.next, first.alike, first.same, midway.has⟩
        (first.retains.channel ▸ first.ready) (kept.channel ▸ unlogged) smooth'
    have items₁ := first.items
    have items₂ := later.items
    have ready₂ := later.ready
    rw [kept₁.channel] at items₁
    rw [kept.channel] at items₂ ready₂
    refine ⟨v, generate_cons_eq_ok_iff.mpr ⟨unit, w₁, _, w₂, _, prepared, written, rest, ?_⟩,
      kept.trans later.retains, ready₂, later.alike, later.same, fun l off => ?_⟩
    · rw [reported_cons, midway.amid.path m]
    · rw [items₂ l off, items₁ l off, stored_cons]
      simp only [entryAfter, logged.item l off]

/-- No written path leads to the template of the project, and the log file is another one. -/
def Spares (o : StubOutput) (log : Option Location) (written : List Path) (e : Disk) : Prop :=
  ∀ t, o.templates = some t → (∀ q ∈ written, e.find q ≠ e.find t.path) ∧
    ∀ l, log = some l → e.find t.path ≠ .ok l

theorem Spares.congr {log : Option Location} {written : List Path} (spares : o.Spares log written e)
    (same : ∀ p, e.find p = d.find p) : o.Spares log written d := by
  intro t own
  simp only [← same]
  exact spares t own

theorem Spares.unlogged {log : Option Location} {written : List Path}
    (spares : o.Spares log written e) (kept : Disk.Keeps d e) : o.Unlogged log d :=
  fun t l own found lead => (spares t own).2 l lead (Disk.find_of_keeps kept found)

theorem units_of_generate {written : List Path}
    (done : (o.generate ms).outcome w = (.ok written, v)) :
    ∀ m ∈ ms, ∃ unit, m.unit = .ok unit := by
  induction ms generalizing o w written with
  | nil => exact nofun
  | cons m ms ih =>
    obtain ⟨unit, w₁, here, w₂, rest, preparing, -, remaining, rfl⟩ :=
      generate_cons_eq_ok_iff.mp done
    obtain ⟨s, prepared, -⟩ := Run.act_eq_ok preparing
    exact List.forall_mem_cons.mpr ⟨⟨unit, (prepare_eq_ok prepared).1⟩, ih remaining⟩

theorem keeps_of_write {stored : Bool} (ready : Channel.Ready w.channel w.disk)
    (done : (o.write m unit).outcome w = (.ok stored, v)) :
    v.channel = w.channel ∧ Disk.Keeps w.disk v.disk ∧ Channel.Ready w.channel v.disk := by
  cases stored with
  | false =>
    obtain ⟨channel, grown⟩ := grows_write ready done
    exact ⟨channel, grown.toKeeps, ready.mono grown⟩
  | true =>
    obtain ⟨channel, l, bytes, -, -, rewritten⟩ := rewrites_write ready done
    exact ⟨channel, rewritten.toKeeps, ready.rewritten rewritten⟩

theorem keeps_of_generate {written : List Path} (ready : Channel.Ready w.channel w.disk)
    (done : (o.generate ms).outcome w = (.ok written, v)) :
    v.channel = w.channel ∧ Disk.Keeps w.disk v.disk ∧ Channel.Ready w.channel v.disk := by
  induction ms generalizing o w written with
  | nil =>
    cases done
    exact ⟨rfl, Disk.Keeps.refl _, ready⟩
  | cons m ms ih =>
    obtain ⟨unit, w₁, here, w₂, rest, preparing, writing, remaining, rfl⟩ :=
      generate_cons_eq_ok_iff.mp done
    obtain ⟨-, kept, logged⟩ := act_prepare_eq_ok ready preparing
    have ready₁ : Channel.Ready w₁.channel w₁.disk := kept.channel ▸ ready.relogged logged
    obtain ⟨channel, first, ready₂⟩ := keeps_of_write ready₁ writing
    obtain ⟨channel', others, ready₃⟩ := ih (channel ▸ ready₂) remaining
    rw [channel, kept.channel] at channel' ready₃
    exact ⟨channel', logged.sameDirectories.keeps.trans (first.trans others), ready₃⟩

theorem Spares.of_cons {log : Option Location} {here : Bool} {q : Path} {rest : List Path}
    (spares : o.Spares log (if here then q :: rest else rest) e) : o.Spares log rest e := by
  refine fun t own => ⟨fun other mem => (spares t own).1 other ?_, (spares t own).2⟩
  split_ifs
  · exact List.mem_cons_of_mem _ mem
  · exact mem

theorem smooth_of_generate (midway : o.Midway now d w.disk) {written : List Path}
    (ready : Channel.Ready w.channel w.disk)
    (done : (now.generate ms).outcome w = (.ok written, v))
    (spares : o.Spares (Channel.log w.channel) written v.disk) :
    ∀ m ∈ ms, ∃ unit, o.Smooth d m unit := by
  induction ms generalizing now w written with
  | nil => exact nofun
  | cons m ms ih =>
    have kept := midway.same.keeps.trans (keeps_of_generate ready done).2.1
    have unlogged := spares.unlogged kept
    obtain ⟨unit, w₁, here, w₂, rest, preparing, writing, remaining, rfl⟩ :=
      generate_cons_eq_ok_iff.mp done
    obtain ⟨hasUnit, kept₁, logged⟩ := act_prepare_eq_ok ready preparing
    have ready₁ : Channel.Ready w₁.channel w₁.disk := kept₁.channel ▸ ready.relogged logged
    have midway₁ := midway.relogged unlogged logged
    have smooth : o.Smooth d m unit := by
      refine smooth_of_write midway₁ hasUnit writing ?_
      rintro rfl t l own found target
      refine (spares t own).1 _ List.mem_cons_self ?_
      rw [midway.amid.path m, Disk.find_of_keeps kept found, Disk.find_of_keeps kept target]
    obtain ⟨w₃, written₃, first⟩ :=
      write_of_directory midway₁ ready₁ (kept₁.channel ▸ unlogged) smooth
    cases writing.symm.trans written₃
    refine List.forall_mem_cons.mpr ⟨⟨unit, smooth⟩,
      ih ⟨midway₁.next, first.alike, first.same, midway.has⟩
        (first.retains.channel ▸ first.ready) remaining ?_⟩
    rw [first.retains.channel, kept₁.channel]
    exact spares.of_cons

/-- How writing the stubs of modules leaves a disk, so that writing them again changes nothing:
there was nothing to write, or no directory for it, or all stubs that can be written are there. -/
inductive Ends (o : StubOutput) (log : Option Location) (ms : List Definition) :
    List Path → Disk → Prop
  | idle {d : Disk} (none : ms = []) : Ends o log ms [] d
  | stuck {d e : Disk} {why : DiskFault}
    (stuck : d.makeDirectories o.directory = (.error why, d))
    (clean : Disk.hasNull o.directory = false) (units : ∀ m ∈ ms, ∃ unit, m.unit = .ok unit)
    (same : Disk.Relogged log d e) : Ends o log ms [] e
  | stored {d : Disk} (has : Disk.HasDirectory d o.directory) (unlogged : o.Unlogged log d)
    (smooth : ∀ m ∈ ms, ∃ unit, o.Smooth d m unit)
    (there : ∀ l, log ≠ some l →
      ((o.stored d ms l).map Entry.file).or (d.item? l) = d.item? l) :
    Ends o log ms (o.reported d ms) d

section

variable {here : Bool} {rest : List Path} {u : World}
  (ready : Channel.Ready w.channel w.disk)
  (writing : (o.write m unit).outcome w = (.ok here, v))
  (remaining : ((o.next w.disk).generate ms).outcome v = (.ok rest, u))
include ready writing remaining

theorem ends_of_not_made {why : DiskFault} (units : ∀ n ∈ m :: ms, ∃ unit, n.unit = .ok unit)
    (made : w.disk.makeDirectories o.directory = (.error why, d)) :
    w.Retains u ∧ Channel.Ready w.channel u.disk ∧
      Ends o (Channel.log w.channel) (m :: ms)
        (if here then o.path m :: rest else rest) u.disk := by
  have clean : Disk.hasNull o.directory = false := by
    rw [← Bool.not_eq_true, ← Disk.makeDirectories_null_iff (d := w.disk), made]
    rintro ⟨⟩
    rw [outcome_write, (Placed.blocked made : o.Placed (o.path m) unit _ _ _ _).place_eq] at writing
    cases writing
  obtain ⟨again, stuck⟩ := Disk.makeDirectories_again made
  rw [next_of_not_made made] at remaining
  obtain ⟨w₁, refused, kept₁, same⟩ := write_of_not_made ready made clean m unit
  rw [writing] at refused
  cases refused
  have grown := Disk.grows_makeDirectories (Channel.log w.channel) w.disk o.directory
  rw [made] at grown
  have ready₁ : Channel.Ready w.channel v.disk := (ready.mono grown).relogged same
  rw [← kept₁.channel] at same ready₁
  obtain ⟨w₂, rest₂, kept₂, last⟩ :=
    generate_of_stuck stuck clean (List.forall_mem_cons.mp units).2 ready₁ same
  rw [remaining] at rest₂
  cases rest₂
  have ready₂ := ready₁.relogged (same.symm.trans last)
  rw [kept₁.channel] at last ready₂
  exact ⟨kept₁.trans kept₂, ready₂, .stuck stuck clean units last⟩

theorem ends_of_made (hasUnit : m.unit = .ok unit)
    (made : w.disk.makeDirectories o.directory = (.ok (), d))
    (spares : o.Spares (Channel.log w.channel) (if here then o.path m :: rest else rest) u.disk) :
    w.Retains u ∧ Channel.Ready w.channel u.disk ∧
      Ends o (Channel.log w.channel) (m :: ms)
        (if here then o.path m :: rest else rest) u.disk := by
  rw [write_of_made made] at writing
  rw [next_of_made made] at remaining
  have grown := Disk.grows_makeDirectories (Channel.log w.channel) w.disk o.directory
  rw [made] at grown
  have ready' := ready.mono grown
  have has := Disk.hasDirectory_of_makeDirectories made
  obtain ⟨channel, kept, ready₁⟩ := keeps_of_write (w := { w with disk := d }) ready' writing
  rw [← channel] at ready₁
  have last : Disk.Keeps d u.disk := kept.trans (keeps_of_generate ready₁ remaining).2.1
  have unlogged := spares.unlogged last
  have midway := Midway.start has
  have smooth : o.Smooth d m unit := by
    refine smooth_of_write (w := { w with disk := d }) midway hasUnit writing ?_
    rintro rfl t l own found target
    refine (spares t own).1 _ List.mem_cons_self ?_
    rw [Disk.find_of_keeps last found, Disk.find_of_keeps last target]
  obtain ⟨v', writing', first⟩ :=
    write_of_directory (w := { w with disk := d }) midway ready' unlogged smooth
  cases writing.symm.trans writing'
  have midway₁ : o.Midway (o.settled d) d v.disk := ⟨.inr rfl, first.alike, first.same, has⟩
  have smooth' : ∀ m ∈ ms, ∃ unit, o.Smooth d m unit := by
    refine smooth_of_generate midway₁ ready₁ remaining ?_
    rw [channel]
    exact spares.of_cons
  obtain ⟨u', remaining', later⟩ :=
    generate_of_directory midway₁ ready₁ (channel ▸ unlogged) smooth'
  cases remaining.symm.trans remaining'
  have ready₂ := later.ready
  have items₂ := later.items
  rw [channel] at ready₂ items₂
  have all := List.forall_mem_cons.mpr ⟨⟨unit, smooth⟩, smooth'⟩
  have ends := Ends.stored (o := o) (has.mono later.same.keeps) (unlogged.congr later.same)
    (fun n mem => (all n mem).imp fun _ smooth => smooth.congr later.same later.alike) ?_
  · rw [reported_congr later.same later.alike, reported_cons] at ends
    obtain ⟨channel₂, memo₂⟩ := first.retains.trans later.retains
    exact ⟨⟨channel₂, memo₂⟩, ready₂, ends⟩
  · intro l off
    have item := items₂ l off
    rw [first.items l off] at item
    rw [stored_congr later.same later.alike, stored_cons]
    cases later : o.stored d ms l with
    | some bytes =>
      rw [later] at item
      exact item.symm
    | none =>
      rw [later] at item
      exact entryAfter_again item

end

theorem ends_of_generate {written : List Path} (ready : Channel.Ready w.channel w.disk)
    (done : (o.generate ms).outcome w = (.ok written, v))
    (spares : o.Spares (Channel.log w.channel) written v.disk) :
    w.Retains v ∧ Channel.Ready w.channel v.disk ∧
      Ends o (Channel.log w.channel) ms written v.disk := by
  have units := units_of_generate done
  cases ms with
  | nil =>
    cases done
    exact ⟨⟨rfl, rfl⟩, ready, .idle rfl⟩
  | cons m ms =>
    obtain ⟨unit, w₁, here, w₂, rest, preparing, writing, remaining, rfl⟩ :=
      generate_cons_eq_ok_iff.mp done
    obtain ⟨hasUnit, kept₁, logged⟩ := act_prepare_eq_ok ready preparing
    have ready₁ : Channel.Ready w₁.channel w₁.disk := kept₁.channel ▸ ready.relogged logged
    rw [← kept₁.channel] at spares ⊢
    rcases made : w₁.disk.makeDirectories o.directory with ⟨_ | _, d⟩
    · obtain ⟨kept, ends⟩ := ends_of_not_made ready₁ writing remaining units made
      exact ⟨kept₁.trans kept, ends⟩
    · obtain ⟨kept, ends⟩ := ends_of_made ready₁ writing remaining hasUnit made spares
      exact ⟨kept₁.trans kept, ends⟩

theorem Ends.relogged {log : Option Location} {written : List Path}
    (ends : Ends o log ms written d) (same : Disk.Relogged log d e) :
    Ends o log ms written e := by
  cases ends with
  | idle none => exact .idle none
  | stuck stuck clean units before => exact .stuck stuck clean units (before.trans same)
  | stored has unlogged smooth there =>
    have alike := unlogged.alike same
    have directories := same.sameDirectories
    rw [← reported_congr directories alike]
    refine .stored (has.mono directories.keeps) (unlogged.congr directories)
      (fun m mem => (smooth m mem).imp fun _ smooth => smooth.congr directories alike)
      fun l off => ?_
    rw [stored_congr directories alike, same.item l off, there l off]

/-- On a disk that writing the stubs has left, writing them again gives the same paths and
leaves every file as it was, the log file apart. -/
theorem generate_again {written : List Path} (ready : Channel.Ready w.channel w.disk)
    (ends : Ends o (Channel.log w.channel) ms written w.disk) :
    ∃ v, (o.generate ms).outcome w = (.ok written, v) ∧ w.Retains v ∧
      Disk.Relogged (Channel.log w.channel) w.disk v.disk := by
  generalize start : w.disk = d at ends
  cases ends with
  | idle none =>
    subst none start
    exact ⟨w, rfl, ⟨rfl, rfl⟩, .refl _ w.disk⟩
  | stuck stuck clean units before =>
    subst start
    obtain ⟨v, done, kept, after⟩ := generate_of_stuck stuck clean units ready before
    exact ⟨v, done, kept, before.symm.trans after⟩
  | stored has unlogged smooth there =>
    subst start
    obtain ⟨v, done, later⟩ := generate_of_directory (.start has) ready unlogged smooth
    have item : ∀ l, Channel.log w.channel ≠ some l → v.disk.item? l = w.disk.item? l :=
      fun l off => (later.items l off).trans (there l off)
    refine ⟨v, done, later.retains, later.same.here, later.same.writable, fun l => ?_, item⟩
    by_cases lead : Channel.log w.channel = some l
    · obtain ⟨bytes, first⟩ := ready l lead
      obtain ⟨others, second⟩ := later.ready l lead
      rw [first, second]
      rfl
    · rw [item l lead]

end StubOutput

end ModuleStubs
