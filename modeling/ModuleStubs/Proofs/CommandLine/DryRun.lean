import ModuleStubs.Proofs.CommandLine.Completion
import ModuleStubs.Proofs.Log.Opening
import ModuleStubs.Proofs.Project.Origin
import ModuleStubs.Proofs.Settings.Usable
import ModuleStubs.Proofs.Stub.SteadyTemplate

/-! A dry run beside the real run from the same state. Both collect the same modules; the texts
that the one prints are those that the other hands to its writes, unless the project's own template
changes under the writes. The dry run leaves all files as they are but for the log. -/

namespace ModuleStubs

namespace CommandLine

variable {o now : StubOutput} {w v : World} {d : Disk} {m : Definition} {ms : List Definition}

def shown (o : StubOutput) (m : Definition) (text : String) : String :=
  "// " ++ (o.path m).name ++ "\n" ++ text

theorem preview_cons_eq_ok (done : (preview now (m :: ms)).outcome w = (.ok (), v)) :
    ∃ unit text session, m.unit = .ok unit ∧
      w.session.Follows session ⟨[], m.warnings⟩ ∧
      now.render (w.advance session).disk unit = .ok (Wording.ofString text) ∧
      (preview (now.settled (w.advance session).disk) ms).outcome
        { w.advance session with printed := w.printed ++ shown now m text } = (.ok (), v) := by
  obtain ⟨_, headed, heading, done⟩ := Run.outcome_bind_eq_ok.mp done
  obtain ⟨unit, prepared, preparing, done⟩ := Run.outcome_bind_eq_ok.mp done
  obtain ⟨_, _, ⟨⟩, done⟩ := Run.outcome_bind_eq_ok.mp done
  obtain ⟨laid, drawn, drawing, done⟩ := Run.outcome_bind_eq_ok.mp done
  obtain ⟨_, printed, printing, done⟩ := Run.outcome_bind_eq_ok.mp done
  cases (Run.outcome_print_string _ w).symm.trans heading
  obtain ⟨session, outcome, rfl⟩ := Run.act_eq_ok preparing
  obtain ⟨hasUnit, warned⟩ := StubOutput.prepare_eq_ok outcome
  obtain ⟨drew, rfl⟩ := Run.liftExcept_eq_ok_iff.mp drawing
  obtain ⟨text, whole, rfl⟩ := Run.print_eq_ok_iff.mp printing
  rw [draw, mapError_eq_ok_iff, Wording.text_eq_ok_iff.mp whole] at drew
  refine ⟨unit, text, session, hasUnit, warned, drew, ?_⟩
  rw [shown, ← String.append_assoc]
  exact done

theorem preview_follows (done : (preview now ms).outcome w = (.ok (), v)) :
    w.Follows v ⟨[], ms.flatMap Definition.warnings⟩ := by
  induction ms generalizing now w with
  | nil =>
    cases done
    exact .refl _
  | cons m ms ih =>
    obtain ⟨_, text, session, -, warned, -, rest⟩ := preview_cons_eq_ok done
    obtain ⟨followed, channel, logged⟩ := World.follows_advance warned
    have first : w.Follows { w.advance session with printed := w.printed ++ shown now m text }
        ⟨[], m.warnings⟩ := ⟨followed, channel, logged⟩
    exact first.trans (ih rest)

def LaidOut (o : StubOutput) (d : Disk) (m : Definition) (text : String) : Prop :=
  ∃ unit, m.unit = .ok unit ∧ o.render d unit = .ok (Wording.ofString text)

/-- If the log file is not the template, a dry run prints what is laid out on the first disk. -/
theorem preview_prints (amid : o.Amid d now)
    (logged : Disk.Relogged (Channel.log w.channel) d w.disk)
    (ready : Channel.Ready w.channel w.disk) (unlogged : o.Unlogged (Channel.log w.channel) d)
    (done : (preview now ms).outcome w = (.ok (), v)) :
    ∃ texts, List.Forall₂ (LaidOut o d) ms texts ∧
      v.printed = w.printed ++ String.join (List.zipWith (shown o) ms texts) := by
  induction ms generalizing now w with
  | nil =>
    cases done
    exact ⟨[], .nil, by simp⟩
  | cons m ms ih =>
    obtain ⟨unit, text, session, hasUnit, -, laid, rest⟩ := preview_cons_eq_ok done
    have told := World.relogged_advance ready session
    have logged' := logged.trans told
    have alike := unlogged.alike logged'
    obtain ⟨texts, others, printed⟩ :=
      ih (.inr (amid.settled alike))
        (w := { w.advance session with printed := w.printed ++ shown now m text }) logged'
        (ready.relogged told) unlogged rest
    rw [amid.render alike] at laid
    refine ⟨text :: texts, .cons ⟨unit, hasUnit, laid⟩ others, ?_⟩
    have path : shown now m text = shown o m text := by rw [shown, shown, amid.path]
    rw [printed, List.zipWith_cons_cons, String.join_cons, ← String.append_assoc, path]

/-- After the modules have been collected, a dry run warns of each, and prints what is laid out. -/
theorem dryRun_eq_ok {p : Project} {out : Option Path} {x : World} {c : Collection}
    (done : (dryRun p out).outcome w = (.ok (), v)) (collected : p.collect.outcome w = (.ok c, x)) :
    x.Follows v ⟨[], c.modules.flatMap Definition.warnings⟩ ∧
      (Channel.Ready x.channel x.disk → (p.output out).Unlogged (Channel.log x.channel) x.disk →
        ∃ texts, List.Forall₂ (LaidOut (p.output out) x.disk) c.modules texts ∧
          v.printed =
            x.printed ++ String.join (List.zipWith (shown (p.output out)) c.modules texts)) := by
  rw [dryRun, Run.outcome_bind_of_ok collected] at done
  obtain ⟨_, previewed, previewing, reporting⟩ := Run.outcome_bind_eq_ok.mp done
  obtain ⟨t, reported, -, silent⟩ := Project.outcome_report previewed
  have same : v = previewed.advance t := congrArg Prod.snd (reporting.symm.trans reported)
  have all := (preview_follows previewing).trans (World.follows_advance silent)
  rw [Tale.append_empty] at all
  rw [same]
  refine ⟨all, fun ready unlogged => ?_⟩
  exact preview_prints (v := previewed) (.inl rfl) (.refl _ x.disk) ready unlogged previewing

/-- A real run hands the collected modules to its writes, and tells which were written. -/
theorem mocksCommand_eq_ok {p : Project} {out : Option Path}
    (done : (mocksCommand p out).outcome w = (.ok (), v)) :
    ∃ c x hs y, p.collect.outcome w = (.ok c, x) ∧
      ((p.output out).handing c.modules).outcome x = (.ok hs, y) ∧
      y.session.Follows v.session {} ∧
      v.printed = y.printed ++ writtenText v.disk ((p.output out).storedPaths hs) := by
  obtain ⟨⟨c, written⟩, u, ran, telling⟩ := Run.outcome_bind_eq_ok.mp done
  obtain ⟨c, x, collected, ran⟩ := Run.outcome_bind_eq_ok.mp ran
  obtain ⟨written, y, generated, ran⟩ := Run.outcome_bind_eq_ok.mp ran
  obtain ⟨_, reported, reporting, ran⟩ := Run.outcome_bind_eq_ok.mp ran
  obtain ⟨t, report, -, silent⟩ := Project.outcome_report y
  have same : reported = y.advance t := congrArg Prod.snd (reporting.symm.trans report)
  cases ran
  obtain ⟨hs, handed, rfl⟩ := StubOutput.generate_eq_ok_iff.mp generated
  rw [Run.outcome_bind_of_ok (Run.outcome_disk _), Run.outcome_print_string, same] at telling
  cases telling
  exact ⟨c, x, hs, y, collected, handed, silent, rfl⟩

structure HandsOver (p : Project) (out : Option Path) (w : World) (c : Collection) (x y : World)
    (hs : List Handed) : Prop where
  collected : p.collect.outcome w = (.ok c, x)
  handed : ((p.output out).handing c.modules).outcome x = (.ok hs, y)
  generated :
    ((p.output out).generate c.modules).outcome x = (.ok ((p.output out).storedPaths hs), y)
  modules : hs.map Handed.definition = c.modules

/-- The text for a module is the one that its write is handed. None is handed where the output
directory cannot be made. -/
structure Previews (o : StubOutput) (d : Disk) (h : Handed) (text : String) : Prop where
  laid : LaidOut o d h.definition text
  handed : h.text = some (Wording.ofString text) ∨
    h.text = none ∧ ∃ why, h.result = .error (.disk why)

/-- How a dry run and a real run end beside each other. The texts are those of the writes if these
leave the project's own template alone. -/
structure Agrees (o : StubOutput) (hs : List Handed) (x y : World) (dry real : Outcome) : Prop where
  told : real.output = writtenText real.world.disk (o.storedPaths hs)
  calls : dry.world.session.calls = real.world.session.calls
  warned : dry.world.session.diagnostics =
    x.session.diagnostics ++ hs.flatMap fun h => h.definition.warnings
  noted : real.world.session.diagnostics = x.session.diagnostics ++
    hs.flatMap fun h => h.definition.warnings ++ (o.writeError h).toList
  previewed : o.Spares (Channel.log x.channel) (o.storedPaths hs) y.disk →
    o.Steady x.disk y.disk → ∃ texts, List.Forall₂ (Previews o x.disk) hs texts ∧
      dry.output = String.join (List.zipWith (fun h => shown o h.definition) hs texts)

structure LeavesLog (channel : Channel) (logFile : Option Path) (d : Disk) (dry : Outcome) :
    Prop where
  files : Disk.SameFiles channel.file d dry.world.disk
  asked : ∀ l, channel.file = some l →
    ∃ p, logFile = some p ∧ dry.world.disk.find (d.absolute p) = .ok l

def completed (v : World) : Outcome := ⟨.ok 0, v.printed, v.console, v⟩

/-- From a world where nothing has been printed, a dry run and a real run that both complete
collect the same modules. Of the disk the dry run changes the log file only. -/
theorem dryRun_beside {p : Project} {out : Option Path} {u : World}
    (dryDone : (dryRun p out).outcome w = (.ok (), v))
    (realDone : (mocksCommand p out).outcome w = (.ok (), u))
    (reached : w.session.memo.Reached) (ready : Channel.Ready w.channel w.disk)
    (fresh : w.printed = "") :
    ∃ c x y hs, HandsOver p out w c x y hs ∧
      Agrees (p.output out) hs x y (completed v) (completed u) ∧
      Disk.SameBut (Channel.log w.channel) w.disk v.disk := by
  obtain ⟨c, x, hs, y, collected, handed, after, told⟩ := mocksCommand_eq_ok realDone
  obtain ⟨modules, silent, noted⟩ := StubOutput.handing_eq_ok handed
  obtain ⟨follows, prints⟩ := dryRun_eq_ok dryDone collected
  obtain ⟨collects, -⟩ := p.ensures_collect w reached ready
  rw [collected] at collects
  have ready' := collects.ready ready
  have quiet : x.printed = "" := collects.printed.trans fresh
  have generated := StubOutput.generate_eq_ok_iff.mpr ⟨hs, handed, rfl⟩
  have kept := (StubOutput.keeps_of_generate ready' generated).2.1
  have whole := noted.trans after
  have later := follows.disk
  rw [collects.channel] at later
  rw [Tale.append_empty] at whole
  refine ⟨c, x, y, hs, ⟨collected, handed, generated, modules⟩, ⟨?_, ?_, ?_, ?_, ?_⟩,
    collects.disk.sameBut.trans later⟩
  · exact told.trans (by rw [silent, quiet, String.empty_append]; rfl)
  · exact follows.session.calls.trans whole.calls.symm
  · refine follows.session.diagnostics.trans ?_
    rw [← modules, List.flatMap_map]
  · exact whole.diagnostics
  · intro spares steady
    obtain ⟨texts, laid, printed⟩ := prints ready' (spares.unlogged kept)
    have start : (p.output out).Leaves (Channel.log x.channel) [] x.disk x.disk :=
      .of_relogged (.refl _ x.disk)
    have given := StubOutput.laid_of_handing (.inl rfl) start nofun ready' handed spares steady
    rw [← modules, List.forall₂_map_left_iff] at laid
    refine ⟨texts, ((List.forall₂_and_left hs texts).mpr ⟨given, laid⟩).imp ?_, ?_⟩
    · rintro h text ⟨⟨unit, hasUnit, handed⟩, other, hasUnit', laid⟩
      cases hasUnit.symm.trans hasUnit'
      rw [laid] at handed
      exact ⟨⟨unit, hasUnit, laid⟩, handed⟩
    · rw [completed, printed, quiet, String.empty_append, ← modules, List.zipWith_map_left]

/-- A dry run beside the real run from the same state, if both complete. They collect the same
modules and make the same calls; the diagnostics are those of collecting and the warnings of each
module, and the real run has in addition the errors of its writes. If the writes leave the project's
own template alone, the dry run prints for each module, in order, the last component of its path
and the text that the real run hands to its write. The dry run leaves every file as it is, but for
the log that was asked for. -/
theorem dryRun_agrees {verbose : Bool} {logFile : Option Path} {path : Path} {out : Option Path}
    {dryTexts realTexts : List String} {host : Host} {time : String} {d : Disk}
    (dryAsked : read dryTexts = .ok ⟨verbose, logFile, path, .mocks out true⟩)
    (realAsked : read realTexts = .ok ⟨verbose, logFile, path, .mocks out false⟩)
    (dryDone : (run dryTexts host time d).result = .ok 0)
    (realDone : (run realTexts host time d).result = .ok 0) :
    ∃ channel before settings c x y hs,
      Channel.configure verbose logFile d = (.ok (), channel, before) ∧
      Settings.load host before path = .ok settings ∧
      HandsOver ⟨host, settings⟩ out { disk := before, channel := some channel, time := time }
        c x y hs ∧
      Agrees (Project.output ⟨host, settings⟩ out) hs x y (run dryTexts host time d)
        (run realTexts host time d) ∧
      LeavesLog channel logFile d (run dryTexts host time d) := by
  obtain ⟨channel, before, settings, v, configured, loaded, dryOutcome, dryShown⟩ :=
    run_completes dryAsked dryDone
  obtain ⟨channel', before', settings', u, configured', loaded', realOutcome, realShown⟩ :=
    run_completes realAsked realDone
  cases configured.symm.trans configured'
  cases loaded.symm.trans loaded'
  have ready := Channel.ready_configure configured
  obtain ⟨c, x, y, hs, hands, agrees, same⟩ :=
    dryRun_beside dryOutcome realOutcome .nil ready rfl
  rw [dryShown, realShown]
  obtain ⟨opened, leads⟩ := Channel.configure_eq_ok configured
  refine ⟨channel, before, settings, c, x, y, hs, configured, loaded, hands, agrees,
    ⟨opened.trans same.sameFiles, fun l lead => ?_⟩⟩
  -- The log file is still where it was set up: the directories above it have been kept.
  obtain ⟨given, asked, found⟩ := leads l lead
  exact ⟨given, asked, Disk.find_of_keeps (same.keeps ready) found⟩

section

variable {p : Project} {paths : List Path} (found : sources w.disk p.settings = .ok paths)
include found

theorem outcome_dryRun (out : Option Path) : (dryRun p out).outcome w =
    Run.outcome (do
      let c ← p.collectFiles paths
      preview (p.output out) c.modules
      Run.act Project.report) w := by
  rw [dryRun, Run.outcome_bind, Project.outcome_collect found, ← Run.outcome_bind]

theorem outcome_mocksCommand (out : Option Path) : (mocksCommand p out).outcome w =
    Run.outcome (do
      let c ← p.collectFiles paths
      let written ← (p.output out).generate c.modules
      Run.act Project.report
      Run.print (writtenText (← Run.disk) written)) w := by
  rw [mocksCommand, Project.run, bind_assoc, Run.outcome_bind, Project.outcome_collect found,
    ← Run.outcome_bind]
  simp only [bind_assoc, pure_bind]

end

def sourceText : String := "// A.ts\nexport function f(): void \x7b\n\x7d\n"

theorem sources_source :
    sources sourceWorld.disk sourceProject.settings = .ok [⟨.root, ["A.swift"]⟩] :=
  eq_ok_of_toOption (by decide +kernel)

theorem dryRun_source : ∃ v, (dryRun sourceProject none).outcome sourceWorld = (.ok (), v) ∧
    v.printed = sourceText := by
  have evaluated : (fun o : Except Abort Unit × World => (o.1.toOption, o.2.printed))
      ((dryRun sourceProject none).outcome sourceWorld) = (some (), sourceText) := by
    simp only [outcome_dryRun sources_source, Project.collectFiles, Project.collectFrom,
      Project.extractFile, Extractor.extract_eq_viewAlong]
    decide +kernel
  obtain ⟨result, printed⟩ := Prod.ext_iff.mp evaluated
  exact ⟨_, Prod.ext (eq_ok_of_toOption result) rfl, printed⟩

theorem mocks_source :
    ∃ u, (mocksCommand sourceProject none).outcome sourceWorld = (.ok (), u) := by
  have evaluated : ((mocksCommand sourceProject none).outcome sourceWorld).1.toOption =
      some () := by
    simp only [outcome_mocksCommand sources_source, Project.collectFiles, Project.collectFrom,
      Project.extractFile, Extractor.extract_eq_viewAlong]
    decide +kernel
  exact ⟨_, Prod.ext (eq_ok_of_toOption evaluated) rfl⟩

theorem source_previewed :
    let dry := run ["mocks", "--dry-run"] sourceHost "" sourceDisk
    let real := run ["mocks"] sourceHost "" sourceDisk
    let o := sourceProject.output none
    dry.result = .ok 0 ∧ real.result = .ok 0 ∧ dry.output = sourceText ∧
      LeavesLog ⟨false, none⟩ none sourceDisk dry ∧
      ∃ c x y hs texts, HandsOver sourceProject none sourceWorld c x y hs ∧
        Agrees o hs x y dry real ∧ List.Forall₂ (Previews o x.disk) hs texts ∧
        String.join (List.zipWith (fun h => shown o h.definition) hs texts) = sourceText := by
  intro dry real o
  have dryAsked : read ["mocks", "--dry-run"] =
    .ok ⟨false, none, ⟨.relative, []⟩, .mocks none true⟩ := rfl
  have realAsked : read ["mocks"] = .ok ⟨false, none, ⟨.relative, []⟩, .mocks none false⟩ := rfl
  obtain ⟨v, dryOutcome, shown⟩ := dryRun_source
  obtain ⟨u, realOutcome⟩ := mocks_source
  have dryRan : dry = completed v := run_source dryAsked dryOutcome
  have realRan : real = completed u := run_source realAsked realOutcome
  have dryDone : dry.result = .ok 0 := by rw [dryRan]; rfl
  have realDone : real.result = .ok 0 := by rw [realRan]; rfl
  have printed : dry.output = sourceText := by
    rw [dryRan]
    exact shown
  obtain ⟨channel, before, settings, c, x, y, hs, configured, loaded, hands, agrees, leaves⟩ :=
    dryRun_agrees dryAsked realAsked dryDone realDone
  cases configured
  cases load_source.symm.trans loaded
  obtain ⟨texts, previews, same⟩ := agrees.previewed nofun nofun
  exact ⟨dryDone, realDone, printed, leaves, c, x, y, hs, texts, hands, agrees, previews,
    same.symm.trans printed⟩

def nameTemplate : String := "\x7b\x7b unit.module \x7d\x7d\n"

def nameEngine : Engine := fun text unit =>
  .ok (Wording.ofString (if text = nameTemplate then unit.module ++ "\n" else text))

def templateHost : Host := { tool := functionTool, engine := nameEngine }

def ownTemplate : Settings :=
  { root := ⟨.root, []⟩, extension := "ts.j2", templates := some ⟨.root, ["mocks"]⟩ }

def ownTemplateDisk : Disk :=
  { entries := [([settingsFileName], .file (Text.Utf8.encode
      "output:\n  extension: ts.j2\n  templates_dir: mocks\n".toList)),
      (["mocks"], .directory),
      (["mocks", "module.ts.j2"], .file (Text.Utf8.encode nameTemplate.toList)),
      (["module.swift"], .file (Text.Utf8.encode "f".toList)),
      (["z.swift"], .file (Text.Utf8.encode "f".toList))]
    here := [] }

/-- What the settings are made of, but for the time limit. -/
def parts (s : Settings) : List (Option Path) × List String × List (List String) × List Bool :=
  ([s.root, s.templates],
    [s.directory, s.extension, s.tool.executable, s.tool.target, s.tool.sdk],
    [s.includes, s.excludes, s.tool.compilerArgs], [s.tool.cacheLookups, s.tool.timeout.isNone])

theorem eq_ownTemplate {s : Settings} (same : parts s = parts ownTemplate) : s = ownTemplate := by
  obtain ⟨root, ⟨executable, target, sdk, args, timeout, caches⟩, directory, extension, templates,
    includes, excludes⟩ := s
  cases timeout with
  | some timeout => simp [parts, ownTemplate] at same
  | none =>
    simp only [parts, Prod.mk.injEq, List.cons.injEq] at same
    obtain ⟨⟨root, rfl, -⟩, ⟨rfl, rfl, rfl, rfl, rfl, -⟩, ⟨rfl, rfl, rfl, -⟩, rfl, -⟩ := same
    cases root
    rfl

theorem load_ownTemplate :
    Settings.load templateHost ownTemplateDisk ⟨.relative, []⟩ = .ok ownTemplate := by
  obtain ⟨s, loaded, same⟩ := Settings.exists_loaded (f := parts) (a := parts ownTemplate)
    (x := Settings.load templateHost ownTemplateDisk ⟨.relative, []⟩) (by decide +kernel)
  exact eq_ownTemplate same ▸ loaded

def ownTemplateWorld : World := { disk := ownTemplateDisk, channel := some ⟨false, none⟩ }

theorem sources_ownTemplate : sources ownTemplateWorld.disk ownTemplate =
    .ok [⟨.root, ["module.swift"]⟩, ⟨.root, ["z.swift"]⟩] :=
  eq_ok_of_toOption (by decide +kernel)

/-- A module whose stubs are written over the template. The dry run shows the stubs of the other
module by the template as it was, but the real run writes them by the one it has made. -/
theorem template_overwritten :
    let dry := run ["mocks", "--dry-run"] templateHost "" ownTemplateDisk
    let real := run ["mocks"] templateHost "" ownTemplateDisk
    dry.result = .ok 0 ∧ real.result = .ok 0 ∧
      dry.output = "// module.ts.j2\nmodule\n// z.ts.j2\nz\n" ∧
      real.output = "Stubs written to mocks/module.ts.j2\nStubs written to mocks/z.ts.j2\n" ∧
      real.world.disk.read ⟨.root, ["mocks", "z.ts.j2"]⟩ =
        .ok (Text.Utf8.encode "module\n".toList) := by
  intro dry real
  have dryAsked : read ["mocks", "--dry-run"] =
    .ok ⟨false, none, ⟨.relative, []⟩, .mocks none true⟩ := rfl
  have realAsked : read ["mocks"] = .ok ⟨false, none, ⟨.relative, []⟩, .mocks none false⟩ := rfl
  have drawn : (fun o : Except Abort Unit × World => (o.1.toOption, o.2.printed))
      ((dryRun ⟨templateHost, ownTemplate⟩ none).outcome ownTemplateWorld) =
      (some (), "// module.ts.j2\nmodule\n// z.ts.j2\nz\n") := by
    simp only [outcome_dryRun (p := ⟨templateHost, ownTemplate⟩) sources_ownTemplate,
      Project.collectFiles, Project.collectFrom, Project.extractFile,
      Extractor.extract_eq_viewAlong]
    decide +kernel
  have written : (fun o : Except Abort Unit × World => (o.1.toOption, o.2.printed,
        (o.2.disk.read ⟨.root, ["mocks", "z.ts.j2"]⟩).toOption))
      ((mocksCommand ⟨templateHost, ownTemplate⟩ none).outcome ownTemplateWorld) =
      (some (), "Stubs written to mocks/module.ts.j2\nStubs written to mocks/z.ts.j2\n",
        some (Text.Utf8.encode "module\n".toList)) := by
    simp only [outcome_mocksCommand (p := ⟨templateHost, ownTemplate⟩) sources_ownTemplate,
      Project.collectFiles, Project.collectFrom, Project.extractFile,
      Extractor.extract_eq_viewAlong]
    decide +kernel
  simp only [Prod.mk.injEq] at drawn written
  obtain ⟨dryResult, dryPrinted⟩ := drawn
  obtain ⟨realResult, realPrinted, bytes⟩ := written
  have dryRan : dry = completed _ := (run_eq_start templateHost dryAsked rfl).trans
    (start_of_outcome load_ownTemplate (Prod.ext (eq_ok_of_toOption dryResult) rfl))
  have realRan : real = completed _ := (run_eq_start templateHost realAsked rfl).trans
    (start_of_outcome load_ownTemplate (Prod.ext (eq_ok_of_toOption realResult) rfl))
  rw [dryRan, realRan]
  exact ⟨rfl, rfl, dryPrinted, realPrinted, eq_ok_of_toOption bytes⟩

end CommandLine

end ModuleStubs
