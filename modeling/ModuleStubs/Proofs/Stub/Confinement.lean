import ModuleStubs.Proofs.Path.RoundTrip
import ModuleStubs.Proofs.Stub.Refusals

/-! Where the files of a run are. A name is joined to the output directory as it is, so its own
components say where the stubs of the module come to be: below the directory, unless dots lead up
or the name starts from the top. -/

namespace ModuleStubs

/-- There is a file at the place that has not been there, or not with these bytes. -/
def Disk.Touched (d e : Disk) (l : Location) : Prop :=
  (∃ bytes, e.item? l = some (.file bytes)) ∧ e.item? l ≠ d.item? l

namespace StubOutput

def below (o : StubOutput) (m : Definition) : Path :=
  Path.ofString (m.name ++ "." ++ o.extension)

/-- Where the stubs of a module come to be if the output directory is at this place. -/
def target (o : StubOutput) (home : Location) (m : Definition) : Location :=
  Disk.follow (if (o.below m).isAbsolute then [] else home) (o.below m).parts

def Encloses (o : StubOutput) (e : Disk) (l : Location) : Prop :=
  ∃ home, e.find o.directory = .ok home ∧ home <+: l

/-- The file of the module was opened outside of the output directory, where that has made a
difference. -/
def Strays (o : StubOutput) (log : Option Location) (d e : Disk) (h : Handed) : Prop :=
  h.isOpened = true ∧ ∃ home, e.find o.directory = .ok home ∧
    ¬ home <+: o.target home h.definition ∧ log ≠ some (o.target home h.definition) ∧
    e.item? (o.target home h.definition) ≠ d.item? (o.target home h.definition)

section

variable {o : StubOutput} {m : Definition} {home l : Location} {d e : Disk}
  {log : Option Location} {hs : List Handed} {turns : List Turn} {fault : Option Abort}

theorem eq_target_of_find (directory : e.find o.directory = .ok home)
    (found : e.find (o.path m) = .ok l) : l = o.target home m := by
  have start := Disk.eq_follow_of_find directory
  have goal := Disk.eq_follow_of_find found
  have joined : o.path m = Path.append o.directory (o.below m) := rfl
  rw [joined, Path.append] at goal
  rw [target]
  split_ifs at goal ⊢ with absolute
  · rwa [Disk.start, if_pos absolute] at goal
  · rw [Disk.follow_append] at goal
    rw [start]
    exact goal

theorem prefix_target (relative : (o.below m).isAbsolute = false) (down : ".." ∉ (o.below m).parts)
    (home : Location) : home <+: o.target home m := by
  rw [target, relative, if_neg Bool.false_ne_true]
  exact Disk.prefix_follow home down

theorem below_of_plain (plain : '/' ∉ (m.name ++ "." ++ o.extension).toList) :
    (o.below m).isAbsolute = false ∧
      ∀ part ∈ (o.below m).parts, part = m.name ++ "." ++ o.extension := by
  have relative : Path.anchorOf (m.name ++ "." ++ o.extension).toList = .relative := by
    unfold Path.anchorOf
    split
    · next found => exact absurd (by rw [found]; exact List.mem_cons_self) plain
    · next found => exact absurd (by rw [found]; exact List.mem_cons_self) plain
    · next found => exact absurd (by rw [found]; exact List.mem_cons_self) plain
    · rfl
  refine ⟨decide_eq_false (not_not_intro relative), fun part mem => ?_⟩
  have held := List.mem_of_mem_filter mem
  rw [Text.pieces_of_notMem plain] at held
  exact List.mem_singleton.mp held

theorem prefix_target_of_plain (plain : '/' ∉ (m.name ++ "." ++ o.extension).toList)
    (named : m.name ++ "." ++ o.extension ≠ "..") (home : Location) :
    home <+: o.target home m := by
  obtain ⟨relative, single⟩ := below_of_plain plain
  exact prefix_target relative (fun mem => named (single _ mem).symm) home

theorem Leaves.isFile (left : o.Leaves log hs d e) (off : log ≠ some l)
    (there : ∃ bytes, d.item? l = some (.file bytes)) :
    ∃ bytes, e.item? l = some (.file bytes) := by
  obtain ⟨bytes, there⟩ := there
  rcases left.item l off with same | ⟨empty, -⟩ | ⟨h, -, bytes, -, -, held⟩
  · exact ⟨_, same.trans there⟩
  · exact nomatch empty.symm.trans there
  · exact ⟨bytes, held⟩

theorem Placed.opened {unit : StubUnit} {text : Option Wording} {result : Except WriteFault Unit}
    (placed : o.Placed (o.path m) unit d text result e)
    (opened : (Handed.mk m text result).isOpened = true) :
    e.HasDirectory o.directory ∧ ∃ l, e.find (o.path m) = .ok l ∧
      ∃ bytes, e.item? l = some (.file bytes) := by
  have put : ∀ {middle : Disk} {l : Location} (bytes : List UInt8),
      d.makeDirectories o.directory = (.ok (), middle) → middle.fileLocation (o.path m) = .ok l →
      (middle.put l (.file bytes)).HasDirectory o.directory ∧
        ∃ l', (middle.put l (.file bytes)).find (o.path m) = .ok l' ∧
          ∃ held, (middle.put l (.file bytes)).item? l' = some (.file held) := by
    intro middle l bytes made located
    obtain ⟨found, apart⟩ := Disk.fileLocation_eq_ok located
    have kept := Disk.keeps_put apart (.file bytes)
    exact ⟨(Disk.hasDirectory_of_makeDirectories made).mono kept, l, Disk.find_of_keeps kept found,
      bytes, Disk.item?_put_self (Disk.ne_nil_of_item? apart) _⟩
  cases placed with
  | blocked failed => cases opened
  | unlaid made failed => cases opened
  | refused made laid failed => cases opened
  | torn made laid located torn => exact put [] made located
  | stored made laid located encoded => exact put _ made located

/-- Where a file was opened there is one in the end, and there is the output directory. -/
theorem Writes.opened (writes : Writes log o d turns hs fault e) :
    ∀ h ∈ hs, h.isOpened = true → e.HasDirectory o.directory ∧
      ∃ l, e.find (o.path h.definition) = .ok l ∧
        (log ≠ some l → ∃ bytes, e.item? l = some (.file bytes)) := by
  induction writes with
  | done o d => exact nofun
  | ended hasUnit warned tried fatal =>
    refine List.forall_mem_singleton.mpr fun opened => ?_
    obtain ⟨there, l, found, file⟩ := tried.opened opened
    exact ⟨there, l, found, fun _ => file⟩
  | turn hasUnit warned tried survived told rest ih =>
    rw [directory_next, path_next] at ih
    refine List.forall_mem_cons.mpr ⟨fun opened => ?_, ih⟩
    have left := (Leaves.of_relogged told).trans rest.leaves.of_next
    obtain ⟨there, l, found, file⟩ := tried.opened opened
    exact ⟨there.mono left.toKeeps, l, Disk.find_of_keeps left.toKeeps found,
      fun off => left.isFile off file⟩

theorem touched_of_leaves (left : o.Leaves log hs d e) (off : log ≠ some l)
    (touched : Disk.Touched d e l) :
    ∃ h ∈ hs, h.isOpened = true ∧ e.find (o.path h.definition) = .ok l := by
  obtain ⟨⟨bytes, there⟩, changed⟩ := touched
  rcases left.item l off with same | ⟨-, made, -⟩ | ⟨h, mem, held, opened, found, -⟩
  · exact absurd same changed
  · exact nomatch made.symm.trans there
  · exact ⟨h, mem, by rw [Handed.isOpened, opened]; rfl, found⟩

theorem Writes.encloses_iff (writes : Writes log o d turns hs fault e) :
    (∀ l, log ≠ some l → Disk.Touched d e l → o.Encloses e l) ↔
      ∀ h ∈ hs, ¬ o.Strays log d e h := by
  constructor
  · rintro enclosed h mem ⟨opened, home, directory, outside, off, changed⟩
    obtain ⟨-, l, found, file⟩ := writes.opened h mem opened
    have place := eq_target_of_find directory found
    subst place
    obtain ⟨same, there, inside⟩ := enclosed _ off ⟨file off, changed⟩
    rw [directory] at there
    cases there
    exact outside inside
  · intro straight l off touched
    obtain ⟨h, mem, opened, found⟩ := touched_of_leaves writes.leaves off touched
    obtain ⟨⟨home, directory, -⟩, -⟩ := writes.opened h mem opened
    have place := eq_target_of_find directory found
    subst place
    refine ⟨home, directory, ?_⟩
    by_contra outside
    exact straight h mem ⟨opened, home, directory, outside, off, touched.2⟩

end

structure Located (o : StubOutput) (ms : List Definition) (w v : World)
    (result : Except Abort (List Path)) (hs : List Handed) : Prop where
  modules : hs.map Handed.definition <+: ms
  returned : ∀ written, result = .ok written →
    hs.map Handed.definition = ms ∧ written = o.storedPaths hs
  /-- Each opened file is where the name of its module leads from the output directory. -/
  targets : ∀ h ∈ hs, h.isOpened = true → ∃ home, v.disk.find o.directory = .ok home ∧
    v.disk.find (o.path h.definition) = .ok (o.target home h.definition)
  /-- No other file is touched. -/
  touched : ∀ l, Channel.log w.channel ≠ some l → Disk.Touched w.disk v.disk l →
    ∃ h ∈ hs, h.isOpened = true ∧ v.disk.find (o.path h.definition) = .ok l
  enclosed_iff :
    (∀ l, Channel.log w.channel ≠ some l → Disk.Touched w.disk v.disk l → o.Encloses v.disk l) ↔
      ∀ h ∈ hs, ¬ o.Strays (Channel.log w.channel) w.disk v.disk h
  /-- Without separators no name leads out. -/
  plain : ∀ h ∈ hs, '/' ∉ (h.definition.name ++ "." ++ o.extension).toList →
    h.definition.name ++ "." ++ o.extension ≠ ".." →
    ¬ o.Strays (Channel.log w.channel) w.disk v.disk h

/-- What a run over extracted modules touches is told by the names of those whose files it opens.
All files that the run makes or changes, the log file apart, are in the output directory exactly
when no such module strays from it. This holds however the run ends. -/
theorem stubs_enclosed_iff (o : StubOutput) (ms : List Definition) (w : World)
    (ready : Channel.Ready w.channel w.disk) (extracted : ∀ m ∈ ms, m.Extracted) :
    ∃ hs, o.Located ms w ((o.generate ms).outcome w).2 ((o.generate ms).outcome w).1 hs := by
  let turns : List Turn := ms.map fun m => (m, w.disk.writable)
  have modules : turns.map Prod.fst = ms := by
    rw [List.map_map]
    exact List.map_id ms
  have settled : ∀ t ∈ turns, ∀ d ∈ t.1.declarations, d.signature.Settled := by
    intro t mem
    obtain ⟨m, listed, rfl⟩ := List.mem_map.mp mem
    exact (extracted m listed).settled
  have steady : ∀ t ∈ turns, t.2 = w.disk.writable := by
    intro t mem
    obtain ⟨m, listed, rfl⟩ := List.mem_map.mp mem
    rfl
  obtain ⟨hs, fault, v, outcome, writes, -⟩ := @writes_generateAmid o w turns settled ready
  rw [generateAmid_of_steady steady, modules] at outcome
  obtain ⟨front, whole⟩ := writes.definitions
  rw [modules] at front whole
  rw [outcome]
  refine ⟨hs, front, fun written done => ?_, fun h mem opened => ?_,
    fun l off touched => touched_of_leaves writes.leaves off touched, writes.encloses_iff, ?_⟩
  · cases fault with
    | none =>
      cases done
      exact ⟨whole rfl, rfl⟩
    | some why => cases done
  · obtain ⟨⟨home, directory, -⟩, l, found, -⟩ := writes.opened h mem opened
    rw [eq_target_of_find directory found] at found
    exact ⟨home, directory, found⟩
  · rintro h mem plain named ⟨-, home, -, outside, -⟩
    exact outside (prefix_target_of_plain plain named home)

def nestedWorld : World := { disk := (Disk.blank []).addDirectory ["mocks", "sub"] }

def straightModules : List Definition := [{ name := "A" }, { name := "sub/../B" }]

theorem dots_lead_back :
    let e := ((mocks.generate straightModules).outcome nestedWorld).2.disk
    e.item? ["mocks", "B.ts"] = some (.file []) ∧
      ∀ l, Disk.Touched nestedWorld.disk e l → mocks.Encloses e l := by
  intro e
  have extracted : ∀ m ∈ straightModules, m.Extracted := by
    simp only [straightModules, List.forall_mem_cons, List.not_mem_nil, false_implies,
      implies_true, and_true]
    exact ⟨@Definition.extracted_of_name "A" "A" 1 (by decide +kernel),
      @Definition.extracted_of_name "sub/../B" "sub/../B" 8 (by decide +kernel)⟩
  obtain ⟨hs, located⟩ := stubs_enclosed_iff mocks straightModules nestedWorld nofun extracted
  refine ⟨by decide +kernel, fun l touched => located.enclosed_iff.mpr ?_ l nofun touched⟩
  rintro h mem ⟨-, home, directory, outside, -⟩
  have found : e.find mocks.directory = .ok ["mocks"] := eq_ok_of_toOption (by decide +kernel)
  have place : home = ["mocks"] := Except.ok.inj (directory.symm.trans found)
  have inside : ∀ m ∈ straightModules, ["mocks"] <+: mocks.target ["mocks"] m := by decide +kernel
  rw [place] at outside
  exact outside (inside _ (located.modules.subset (List.mem_map_of_mem mem)))

/-- The stubs of a module whose name starts with two dots are beside the output directory. -/
theorem dots_lead_out :
    Definition.Extracted { name := "../evil" } ∧
    let e := ((mocks.generate [{ name := "../evil" }]).outcome { disk := .blank [] }).2.disk
    Disk.Touched (.blank []) e ["evil.ts"] ∧ ¬ mocks.Encloses e ["evil.ts"] := by
  refine ⟨@Definition.extracted_of_name "../evil" "../evil" 7 (by decide +kernel), ?_⟩
  intro e
  have there : e.item? ["evil.ts"] = some (.file []) := by decide +kernel
  refine ⟨⟨⟨[], there⟩, by rw [there]; exact nofun⟩, ?_⟩
  rintro ⟨home, directory, inside⟩
  have found : e.find mocks.directory = .ok ["mocks"] := eq_ok_of_toOption (by decide +kernel)
  have place : home = ["mocks"] := Except.ok.inj (directory.symm.trans found)
  rw [place] at inside
  exact absurd inside (by decide)

end StubOutput

end ModuleStubs
