import ModuleStubs.Proofs.CommandLine.Completion
import ModuleStubs.Proofs.Discovery.Sources
import ModuleStubs.Proofs.Project.FileWork
import ModuleStubs.Proofs.Stub.Repetition

/-! Running a project once more. The sources have not changed, so the same modules are found
in them; and the disk is as writing the stubs of these modules leaves it. -/

namespace ModuleStubs

namespace Run

variable {α β : Type} {w : World}

/-- A run that does what some work of the session does, and changes at most the log file. -/
structure Mirrors (r : Run α) (a : Action α) (w : World) : Prop where
  result : (r.outcome w).1 = (a.outcome w.session).1
  session : (r.outcome w).2.session = (a.outcome w.session).2
  channel : (r.outcome w).2.channel = w.channel
  disk : Disk.Relogged (Channel.log w.channel) w.disk (r.outcome w).2.disk

theorem mirrors_pure (x : α) (w : World) : Mirrors (pure x) (pure x) w :=
  ⟨rfl, rfl, rfl, .refl _ w.disk⟩

theorem mirrors_act (a : Action α) (ready : Channel.Ready w.channel w.disk) :
    Mirrors (act a) a w := by
  have outcome := outcome_act a w
  constructor
  · rw [outcome]
  · rw [outcome]
    rfl
  · rw [outcome]
    rfl
  · rw [outcome]
    exact World.relogged_advance ready _

theorem mirrors_bind {r : Run α} {f : α → Run β} {a : Action α} {g : α → Action β}
    (first : Mirrors r a w)
    (next : ∀ x v, v.channel = w.channel → Disk.Relogged (Channel.log w.channel) w.disk v.disk →
      Mirrors (f x) (g x) v) : Mirrors (r >>= f) (a >>= g) w := by
  obtain ⟨result, session, channel, disk⟩ := first
  cases reached : r.outcome w with
  | mk x v =>
    cases worked : a.outcome w.session with
    | mk y t =>
      rw [reached] at result session channel disk
      rw [worked] at result session
      subst result session
      cases x with
      | error why =>
        have failed := outcome_bind_of_error (f := f) reached
        have failed' := Action.outcome_bind_of_error (f := g) worked
        constructor
        · rw [failed, failed']
        · rw [failed, failed']
        · rw [failed]
          exact channel
        · rw [failed]
          exact disk
      | ok x =>
        have passed := outcome_bind_of_ok (f := f) reached
        have passed' := Action.outcome_bind_of_ok (f := g) worked
        have rest := next x v channel disk
        have last := rest.disk
        rw [channel] at last
        constructor
        · rw [passed, passed', rest.result]
        · rw [passed, passed', rest.session]
        · rw [passed, rest.channel, channel]
        · rw [passed]
          exact disk.trans last

end Run

namespace Disk

/-- A path that leads to the same file on both disks, which is not the log file. -/
def SharesFile (log : Option Location) (d e : Disk) (path : Path) : Prop :=
  ∃ l bytes, log ≠ some l ∧ d.find path = .ok l ∧ d.item? l = some (.file bytes) ∧
    e.find path = .ok l ∧ e.item? l = some (.file bytes)

variable {log : Option Location} {d e f : Disk} {path : Path}

theorem SharesFile.relogged (shares : SharesFile log d e path) (same : Relogged log e f) :
    SharesFile log d f path := by
  obtain ⟨l, bytes, off, found, there, found', there'⟩ := shares
  exact ⟨l, bytes, off, found, there, (same.find path).trans found', (same.item l off).trans there'⟩

theorem SharesFile.readText (shares : SharesFile log d e path) :
    e.readText path = d.readText path := by
  obtain ⟨l, bytes, -, found, there, found', there'⟩ := shares
  rw [Disk.readText, Disk.readText, (read_eq_ok_iff found).mpr there,
    (read_eq_ok_iff found').mpr there']

theorem SharesFile.clean (shares : SharesFile log d e path) : hasNull path = false := by
  obtain ⟨l, -, -, found, -⟩ := shares
  rw [← Bool.not_eq_true]
  intro bad
  rw [find, if_pos bad] at found
  cases found

end Disk

namespace Project

variable {p : Project} {w : World} {d : Disk}

theorem mirrors_extractFile (ready : Channel.Ready w.channel w.disk) {path : Path}
    (shares : Disk.SharesFile (Channel.log w.channel) d w.disk path) :
    Run.Mirrors (p.extractFile path) (p.fileWork d path) w := by
  have work : p.fileWork w.disk path = p.fileWork d path := by
    rw [fileWork, fileWork, shares.readText]
  have outcome := extractFile_eq_act (p := p) (w := w) shares.clean
  rw [work] at outcome
  obtain ⟨result, session, channel, disk⟩ := Run.mirrors_act (p.fileWork d path) ready
  rw [← outcome] at result session channel disk
  exact ⟨result, session, channel, disk⟩

theorem mirrors_collectFrom (ready : Channel.Ready w.channel w.disk) {paths : List Path}
    (shares : ∀ path ∈ paths, Disk.SharesFile (Channel.log w.channel) d w.disk path) :
    Run.Mirrors (p.collectFrom paths) (p.filesWork d paths) w := by
  induction paths generalizing w with
  | nil => exact Run.mirrors_pure _ w
  | cons path paths ih =>
    obtain ⟨first, rest⟩ := List.forall_mem_cons.mp shares
    refine Run.mirrors_bind (mirrors_extractFile ready first) fun found v channel logged => ?_
    have later : Run.Mirrors (p.collectFrom paths) (p.filesWork d paths) v := by
      refine ih (channel ▸ ready.relogged logged) fun path mem => ?_
      rw [channel]
      exact (rest path mem).relogged logged
    cases found with
    | some definition => exact Run.mirrors_bind later fun _ v _ _ => Run.mirrors_pure _ v
    | none => exact Run.mirrors_bind later fun _ v _ _ => Run.mirrors_pure _ v

theorem mirrors_collectFiles (ready : Channel.Ready w.channel w.disk) {paths : List Path}
    (shares : ∀ path ∈ paths, Disk.SharesFile (Channel.log w.channel) d w.disk path) :
    Run.Mirrors (p.collectFiles paths) (p.collectWork d paths) w := by
  refine Run.mirrors_bind (Run.mirrors_act _ ready) fun _ v channel logged => ?_
  refine mirrors_collectFrom (channel ▸ ready.relogged logged) fun path mem => ?_
  rw [channel]
  exact (shares path mem).relogged logged

theorem act_report (ready : Channel.Ready w.channel w.disk) :
    ∃ v, (Run.act report).outcome w = (.ok (), v) ∧ w.Retains v ∧
      Disk.Relogged (Channel.log w.channel) w.disk v.disk := by
  obtain ⟨t, reported, memo, -⟩ := outcome_report w
  exact ⟨w.advance t, reported, World.retains_advance memo, World.relogged_advance ready t⟩

theorem outcome_run {paths : List Path} (found : sources w.disk p.settings = .ok paths)
    (directory : Option Path) : (p.run directory).outcome w =
      Run.outcome (do
        let c ← p.collectFiles paths
        let written ← (p.output directory).generate c.modules
        Run.act report
        pure (c, written)) w := by
  rw [run, Run.outcome_bind, outcome_collect found, ← Run.outcome_bind]

theorem run_eq_ok_iff {directory : Option Path} {paths written : List Path} {c : Collection}
    {u : World} (found : sources w.disk p.settings = .ok paths) :
    (p.run directory).outcome w = (.ok (c, written), u) ↔ ∃ w₁ w₂,
      (p.collectFiles paths).outcome w = (.ok c, w₁) ∧
      ((p.output directory).generate c.modules).outcome w₁ = (.ok written, w₂) ∧
      (Run.act report).outcome w₂ = (.ok (), u) := by
  rw [outcome_run found]
  constructor
  · intro done
    obtain ⟨c', w₁, collected, done⟩ := Run.outcome_bind_eq_ok.mp done
    obtain ⟨written', w₂, generated, done⟩ := Run.outcome_bind_eq_ok.mp done
    obtain ⟨_, w₃, reported, done⟩ := Run.outcome_bind_eq_ok.mp done
    cases done
    exact ⟨w₁, w₂, collected, generated, reported⟩
  · rintro ⟨w₁, w₂, collected, generated, reported⟩
    rw [Run.outcome_bind_of_ok collected, Run.outcome_bind_of_ok generated,
      Run.outcome_bind_of_ok reported]
    rfl

/-- A file to which no written path leads is not changed by writing stubs. -/
theorem sharesFile_of_generated {o : StubOutput} {hs : List Handed} {log : Option Location}
    {d e f g : Disk} {path : Path} (shares : Disk.SharesFile log d e path)
    (generated : StubOutput.Generated o.path hs log e f) (after : Disk.Relogged log f g)
    (apart : ∀ q ∈ o.storedPaths hs, g.find q ≠ g.find path) : Disk.SharesFile log d g path := by
  obtain ⟨l, bytes, off, found, there, found', there'⟩ := shares
  have kept : f.find path = .ok l := Disk.find_of_keeps generated.toKeeps found'
  have last : g.find path = .ok l := (after.find path).trans kept
  refine ⟨l, bytes, off, found, there, last, ?_⟩
  rw [after.item l off]
  rcases generated.places l with ⟨h, mem, stored, -, -, leads, -⟩ | ⟨-, others⟩
  · have same : g.find (o.path h.definition) = g.find path := by rw [last, after.find, leads]
    exact absurd same (apart _ (StubOutput.mem_storedPaths.mpr ⟨h, mem, stored, rfl⟩))
  · obtain ⟨more, held, quiet⟩ := others bytes there'
    rwa [quiet off, List.append_nil] at held

/-- How a run over some sources leaves the world: the log is open, the kept lookups are sound,
and the disk is as writing the stubs of the modules leaves it. -/
structure Leaves (p : Project) (directory : Option Path) (c : Collection) (written : List Path)
    (v : World) : Prop where
  ready : Channel.Ready v.channel v.disk
  sound : p.box.Sound v.session.memo
  ends : StubOutput.Ends (p.output directory) (Channel.log v.channel) c.modules written v.disk

variable {p : Project} {w v : World}

theorem leaves_of_generate {directory : Option Path} {c : Collection} {written : List Path}
    {u : World} (ready : Channel.Ready w.channel w.disk) (sound : p.box.Sound w.session.memo)
    (generated : ((p.output directory).generate c.modules).outcome w = (.ok written, v))
    (reported : (Run.act report).outcome v = (.ok (), u))
    (spares : (p.output directory).Spares (Channel.log w.channel) written u.disk) :
    p.Leaves directory c written u ∧ w.Retains u ∧
      Disk.Relogged (Channel.log w.channel) v.disk u.disk := by
  obtain ⟨channel, -, ready'⟩ := StubOutput.keeps_of_generate ready generated
  obtain ⟨u', reported', kept', logged⟩ := act_report (w := v) (channel ▸ ready')
  rw [reported] at reported'
  cases reported'
  rw [channel] at logged
  obtain ⟨kept, -, ends⟩ :=
    StubOutput.ends_of_generate ready generated (spares.congr logged.find)
  have all := kept.trans kept'
  refine ⟨⟨?_, ?_, ?_⟩, all, logged⟩
  · rw [all.channel]
    exact ready'.relogged logged
  · rw [all.memo]
    exact sound
  · rw [all.channel]
    exact ends.relogged logged

theorem run_of_leaves {directory : Option Path} {paths written : List Path} {c : Collection}
    (leaves : p.Leaves directory c written v) (found : sources v.disk p.settings = .ok paths)
    {work : Action Collection} (mirrors : Run.Mirrors (p.collectFiles paths) work v)
    (collected : (work.outcome v.session).1 = .ok c) :
    ∃ u, (p.run directory).outcome v = (.ok (c, written), u) ∧
      Disk.Relogged (Channel.log v.channel) v.disk u.disk := by
  obtain ⟨result, -, channel₁, disk₁⟩ := mirrors
  rw [collected] at result
  cases reached : (p.collectFiles paths).outcome v with
  | mk given v₁ =>
    rw [reached] at result channel₁ disk₁
    dsimp only at result channel₁ disk₁
    subst result
    have ready₁ : Channel.Ready v₁.channel v₁.disk := channel₁ ▸ leaves.ready.relogged disk₁
    have ends := leaves.ends.relogged disk₁
    rw [← channel₁] at ends
    obtain ⟨v₂, generated, kept, disk₂⟩ := StubOutput.generate_again ready₁ ends
    have ready₂ : Channel.Ready v₂.channel v₂.disk := kept.channel ▸ ready₁.relogged disk₂
    obtain ⟨u, reported, -, disk₃⟩ := act_report ready₂
    rw [kept.channel, channel₁] at disk₃
    rw [channel₁] at disk₂
    exact ⟨u, (run_eq_ok_iff found).mpr ⟨v₁, v₂, reached, generated, reported⟩,
      disk₁.trans (disk₂.trans disk₃)⟩

/-- A second run changes nothing. If a run returns, no written path leads to a source or to the
project's own template, and the same sources are discovered afterwards, then the run that follows
it returns the same modules, skipped sources and written paths, and every file but the log file
stays as it is. -/
theorem run_again {directory : Option Path} {paths written : List Path} {c : Collection}
    (stateless : p.tool.Stateless) (ready : Channel.Ready w.channel w.disk)
    (sound : p.box.Sound w.session.memo)
    (done : (p.run directory).outcome w = (.ok (c, written), v))
    (before : sources w.disk p.settings = .ok paths)
    (after : sources v.disk p.settings = .ok paths) (proper : ∀ path ∈ paths, path.Proper)
    (apart : ∀ q ∈ written, ∀ path ∈ paths, v.disk.find q ≠ v.disk.find path)
    (unlogged : ∀ path ∈ paths, ∀ l, Channel.log w.channel = some l → w.disk.find path ≠ .ok l)
    (spares : (p.output directory).Spares (Channel.log w.channel) written v.disk) :
    ∃ u, (p.run directory).outcome v = (.ok (c, written), u) ∧
      Disk.SameBut (Channel.log w.channel) v.disk u.disk := by
  have shares : ∀ path ∈ paths,
      Disk.SharesFile (Channel.log w.channel) w.disk w.disk path := by
    intro path mem
    obtain ⟨l, bytes, found, there⟩ := file_of_mem_sources before mem
    exact ⟨l, bytes, fun lead => unlogged path mem l lead found, found, there, found, there⟩
  have repeats := (work_collectWork p w.disk proper).repeats stateless
  obtain ⟨w₁, w₂, collected, generated, reported⟩ := (run_eq_ok_iff before).mp done
  obtain ⟨result, session, channel₁, disk₁⟩ := mirrors_collectFiles (p := p) ready shares
  rw [collected] at result session channel₁ disk₁
  have sound₁ : p.box.Sound w₁.session.memo := by
    have memo := (repeats w.session sound).memo
    rwa [← session] at memo
  have ready₁ : Channel.Ready w₁.channel w₁.disk := channel₁ ▸ ready.relogged disk₁
  rw [← channel₁] at spares
  obtain ⟨leaves, kept, disk₂⟩ := leaves_of_generate ready₁ sound₁ generated reported spares
  obtain ⟨hs, handed, rfl⟩ := StubOutput.generate_eq_ok_iff.mp generated
  have stubs := StubOutput.generated_handing ready₁ handed
  have channel := kept.channel.trans channel₁
  rw [channel₁] at stubs disk₂
  -- The sources have not been written to, so they give the same modules again.
  have sharesAgain : ∀ path ∈ paths,
      Disk.SharesFile (Channel.log v.channel) w.disk v.disk path := by
    intro path mem
    rw [channel]
    exact sharesFile_of_generated ((shares path mem).relogged disk₁) stubs disk₂
      fun q wrote => apart q wrote path mem
  have given : ((p.collectWork w.disk paths).outcome v.session).1 = .ok c := by
    rw [(repeats v.session leaves.sound).result, ← (repeats w.session sound).result, ← result]
  obtain ⟨u, again, same⟩ :=
    run_of_leaves leaves after (mirrors_collectFiles leaves.ready sharesAgain) given
  rw [channel] at same
  exact ⟨u, again, same.sameBut⟩

def namesakes : Disk :=
  { entries := [(["x"], .directory), (["x", "A.swift"], .file (Text.Utf8.encode "f".toList)),
      (["y"], .directory), (["y", "A.swift"], .file (Text.Utf8.encode "g".toList))]
    here := [] }

def namesakePaths : List Path := [⟨.root, ["x", "A.swift"]⟩, ⟨.root, ["y", "A.swift"]⟩]

def namesakeStub : Path := ⟨.root, ["mocks", "A.ts"]⟩

open CommandLine in
theorem run_namesakes : ∃ c v,
    (sourceProject.run none).outcome { disk := namesakes } =
      (.ok (c, [namesakeStub, namesakeStub]), v) ∧
    c.modules.map (·.name) = ["A", "A"] ∧
    sources v.disk sourceProject.settings = .ok namesakePaths ∧
    v.disk.find namesakeStub = .ok ["mocks", "A.ts"] ∧
    namesakePaths.map (fun path => (v.disk.find path).toOption) =
      [some ["x", "A.swift"], some ["y", "A.swift"]] := by
  have found : sources namesakes sourceProject.settings = .ok namesakePaths :=
    eq_ok_of_toOption (by decide +kernel)
  have evaluated : (fun o : Except Abort (Collection × List Path) × World =>
      (o.1.toOption.map fun r => (r.1.modules.map (·.name), r.2),
        (sources o.2.disk sourceProject.settings).toOption, (o.2.disk.find namesakeStub).toOption,
        namesakePaths.map fun path => (o.2.disk.find path).toOption))
      ((sourceProject.run none).outcome { disk := namesakes }) =
      (some (["A", "A"], [namesakeStub, namesakeStub]), some namesakePaths,
        some ["mocks", "A.ts"], [some ["x", "A.swift"], some ["y", "A.swift"]]) := by
    simp only [outcome_run (w := { disk := namesakes }) found, namesakePaths,
      Project.collectFiles, Project.collectFrom, Project.extractFile,
      Extractor.extract_eq_viewAlong]
    decide +kernel
  simp only [Prod.mk.injEq] at evaluated
  obtain ⟨result, discovered, led, kept⟩ := evaluated
  obtain ⟨⟨c, written⟩, returned, given⟩ := Option.map_eq_some_iff.mp result
  obtain ⟨names, rfl⟩ := Prod.mk.inj given
  exact ⟨c, _, Prod.ext (eq_ok_of_toOption returned) rfl, names, eq_ok_of_toOption discovered,
    eq_ok_of_toOption led, kept⟩

open CommandLine in
/-- Two sources give modules of one name, so the second stub is written over the first. Once
more both are written there, and the file stays as it is. -/
theorem namesakes_unchanged : ∃ c v u,
    (sourceProject.run none).outcome { disk := namesakes } =
      (.ok (c, [namesakeStub, namesakeStub]), v) ∧
    c.modules.map (·.name) = ["A", "A"] ∧
    (sourceProject.run none).outcome v = (.ok (c, [namesakeStub, namesakeStub]), u) ∧
    Disk.SameBut none v.disk u.disk := by
  obtain ⟨c, v, done, names, after, led, kept⟩ := run_namesakes
  have before : sources namesakes sourceProject.settings = .ok namesakePaths :=
    eq_ok_of_toOption (by decide +kernel)
  have stateless : sourceProject.tool.Stateless := fun _ _ _ => rfl
  have proper : ∀ path ∈ namesakePaths, path.Proper := by
    unfold Path.Proper
    decide
  have apart : ∀ q ∈ [namesakeStub, namesakeStub], ∀ path ∈ namesakePaths,
      v.disk.find q ≠ v.disk.find path := by
    intro q stub path source same
    have leads : (v.disk.find path).toOption = some ["mocks", "A.ts"] := by
      rw [← same, List.eq_of_mem_replicate (n := 2) stub, led]
      rfl
    have mem := List.mem_map_of_mem (f := fun path => (v.disk.find path).toOption) source
    rw [kept, leads] at mem
    exact absurd mem (by decide)
  have ready : Channel.Ready none namesakes := fun _ lead => nomatch lead
  have unlogged : ∀ path ∈ namesakePaths, ∀ l, Channel.log none = some l →
    namesakes.find path ≠ .ok l := fun _ _ _ lead => nomatch lead
  obtain ⟨u, again, same⟩ := run_again stateless ready (Toolbox.sound_nil sourceProject.box) done
    before after proper apart unlogged nofun
  exact ⟨c, v, u, done, names, again, same⟩

def templateDisk : Disk :=
  { entries := [(["B.swift"], .file (Text.Utf8.encode "g".toList)),
      (["module.swift"], .file (Text.Utf8.encode "f".toList))]
    here := [] }

def templateSources : List Path := [⟨.root, ["B.swift"]⟩, ⟨.root, ["module.swift"]⟩]

def firstStub : Path := ⟨.root, ["mocks", "B.ts.j2"]⟩

def templateStubs : List Path := [firstStub, ⟨.root, ["mocks", "module.ts.j2"]⟩]

open CommandLine in
def templateProject : Project :=
  { tool := functionTool
    engine := fun text _ => .ok (Wording.ofString text)
    settings :=
      { root := ⟨.root, []⟩, extension := "ts.j2", templates := some ⟨.root, ["mocks"]⟩ } }

def stubBytes (function : String) : List UInt8 :=
  Text.Utf8.encode s!"export function {function}(): void \x7b\n\x7d\n".toList

def aftermath (o : Except Abort (Collection × List Path) × World) :
    Option (List Path) × Option (List Path) × List (Option Location) × Option (List UInt8) :=
  (o.1.toOption.map Prod.snd, (sources o.2.disk templateProject.settings).toOption,
    (templateStubs ++ templateSources).map fun q => (o.2.disk.find q).toOption,
    (o.2.disk.read firstStub).toOption)

/-- The first run writes stubs which the second one takes for the template. The stubs of the other
module are then written anew, though no source has changed. -/
theorem stub_taken_for_template : ∃ c v c' u,
    templateProject.tool.Stateless ∧
    (templateProject.run none).outcome { disk := templateDisk } = (.ok (c, templateStubs), v) ∧
    sources templateDisk templateProject.settings = .ok templateSources ∧
    sources v.disk templateProject.settings = .ok templateSources ∧
    (∀ q ∈ templateStubs, ∀ path ∈ templateSources, v.disk.find q ≠ v.disk.find path) ∧
    (templateProject.run none).outcome v = (.ok (c', templateStubs), u) ∧
    v.disk.read firstStub = .ok (stubBytes "g") ∧ u.disk.read firstStub = .ok (stubBytes "f") := by
  have before : sources templateDisk templateProject.settings = .ok templateSources :=
    eq_ok_of_toOption (by decide +kernel)
  have first : aftermath ((templateProject.run none).outcome { disk := templateDisk }) =
      (some templateStubs, some templateSources,
        (templateStubs ++ templateSources).map fun q => some q.parts, some (stubBytes "g")) := by
    simp only [outcome_run (w := { disk := templateDisk }) before, templateSources,
      Project.collectFiles, Project.collectFrom, Project.extractFile,
      Extractor.extract_eq_viewAlong]
    decide +kernel
  simp only [aftermath, Prod.mk.injEq, List.map_inj_left] at first
  obtain ⟨result, discovered, places, bytes⟩ := first
  obtain ⟨⟨c, _⟩, returned, rfl⟩ := Option.map_eq_some_iff.mp result
  have after := eq_ok_of_toOption discovered
  have second : aftermath ((templateProject.run none).outcome
        ((templateProject.run none).outcome { disk := templateDisk }).2) =
      (some templateStubs, some templateSources,
        (templateStubs ++ templateSources).map fun q => some q.parts, some (stubBytes "f")) := by
    refine (congrArg aftermath (outcome_run after none)).trans ?_
    simp only [outcome_run (w := { disk := templateDisk }) before, templateSources,
      Project.collectFiles, Project.collectFrom, Project.extractFile,
      Extractor.extract_eq_viewAlong]
    decide +kernel
  simp only [aftermath, Prod.mk.injEq] at second
  obtain ⟨result', -, -, bytes'⟩ := second
  obtain ⟨⟨c', _⟩, returned', rfl⟩ := Option.map_eq_some_iff.mp result'
  refine ⟨c, _, c', _, fun _ _ _ => rfl, Prod.ext (eq_ok_of_toOption returned) rfl, before, after,
    ?_, Prod.ext (eq_ok_of_toOption returned') rfl, eq_ok_of_toOption bytes,
    eq_ok_of_toOption bytes'⟩
  intro q stub path source same
  have apart : ∀ q ∈ templateStubs, ∀ path ∈ templateSources, q.parts ≠ path.parts := by decide
  have leads := places q (List.mem_append_left _ stub)
  rw [same, places path (List.mem_append_right _ source)] at leads
  exact apart q stub path source (Option.some.inj leads).symm

end Project

end ModuleStubs
