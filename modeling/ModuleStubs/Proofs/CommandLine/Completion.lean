import ModuleStubs.CommandLine.Execute
import ModuleStubs.Proofs.Extraction.Nesting
import ModuleStubs.Proofs.Run.Account

/-! How command lines end. One that ends with status zero has set up its log, loaded its
settings and run its command without an abort. A project with one source is given on which
command lines are tried. -/

namespace ModuleStubs

theorem Run.outcome_print {text : Wording} {shown : String} (whole : text.text = .ok shown)
    (w : World) : (print text).outcome w = (.ok (), { w with printed := w.printed ++ shown }) := by
  rw [print, whole]
  rfl

theorem Run.outcome_print_string (text : String) (w : World) :
    (print text).outcome w = (.ok (), { w with printed := w.printed ++ text }) :=
  outcome_print (Wording.text_ofString text) w

theorem Run.print_eq_ok_iff {text : Wording} {w v : World} :
    (print text).outcome w = (.ok (), v) ↔
      ∃ shown, text.text = .ok shown ∧ v = { w with printed := w.printed ++ shown } := by
  rw [print]
  cases whole : text.text with
  | error why => exact iff_of_false nofun nofun
  | ok shown =>
    constructor
    · rintro ⟨⟩
      exact ⟨shown, rfl, rfl⟩
    · rintro ⟨_, ⟨⟩, rfl⟩
      rfl

theorem Run.liftExcept_eq_ok_iff {α : Type} {x : Except Abort α} {a : α} {w v : World} :
    (liftExcept x).outcome w = (.ok a, v) ↔ x = .ok a ∧ v = w := by
  cases x with
  | error why => exact iff_of_false nofun nofun
  | ok b =>
    constructor
    · rintro ⟨⟩
      exact ⟨rfl, rfl⟩
    · rintro ⟨⟨⟩, rfl⟩
      rfl

namespace Project

theorem outcome_report (w : World) : ∃ t, (Run.act report).outcome w = (.ok (), w.advance t) ∧
    t.memo = w.session.memo ∧ w.session.Follows t {} := by
  obtain ⟨t, records, memo, follows⟩ :=
    Action.outcome_records (Diagnostic.report w.session.diagnostics) w.session
  have reported : report.outcome w.session = (.ok (), t) :=
    (Action.outcome_bind_of_ok (Action.outcome_get w.session)).trans records
  refine ⟨t, ?_, memo, follows⟩
  rw [Run.outcome_act, reported]

theorem outcome_collect {p : Project} {w : World} {paths : List Path}
    (found : sources w.disk p.settings = .ok paths) :
    p.collect.outcome w = (p.collectFiles paths).outcome w := by
  have discovered : p.discover.outcome w = (.ok paths, w) := by
    rw [discover, Run.outcome_bind_of_ok (Run.outcome_disk w), found]
    rfl
  rw [collect, Run.outcome_bind_of_ok discovered]

end Project

namespace CommandLine

def Command.body (p : Project) : Command → Run Unit
  | .definitions => printDefinitions p
  | .mocks outputDir true => dryRun p outputDir
  | .mocks outputDir false => mocksCommand p outputDir

def Command.word : Command → String
  | .definitions => "structure"
  | .mocks _ _ => "mocks"

section

variable (r : Request) (host : Host) (w : World)

theorem perform_eq_execute (p : Project) :
    perform r p w = execute r.command.word (r.command.body p) w := by
  unfold perform
  split <;> simp [Command.word, Command.body, *]

theorem perform_ends (p : Project) : ∃ status, (perform r p w).result = .ok status := by
  rw [perform_eq_execute, execute]
  rcases (r.command.body p).outcome w with ⟨_ | _, v⟩
  · exact ⟨1, rfl⟩
  · exact ⟨0, rfl⟩

variable {r w} in
theorem run_eq_start {texts : List String} {time : String} {d : Disk} {channel : Channel}
    {before : Disk} (asked : read texts = .ok r)
    (configured : Channel.configure r.verbose r.logFile before = (.ok (), channel, d)) :
    run texts host time before =
      start r host { disk := d, channel := some channel, time := time } := by
  rw [run, asked]
  dsimp only
  rw [configured]

theorem start_of_fault {why : SettingsFault}
    (failed : Settings.load host w.disk r.path = .error why) :
    start r host w = if why.isOfFile then ⟨.ok 1, "", why.message ++ "\n", w⟩
      else ⟨.error (.settings why), "", "", w⟩ := by
  rw [start, failed]

end

variable {r : Request} {host : Host} {w v : World}

theorem start_of_outcome {settings : Settings}
    (loaded : Settings.load host w.disk r.path = .ok settings)
    (outcome : (r.command.body ⟨host, settings⟩).outcome w = (.ok (), v)) :
    start r host w = ⟨.ok 0, v.printed, v.console, v⟩ := by
  rw [start, loaded]
  change perform r ⟨host, settings⟩ w = _
  rw [perform_eq_execute, execute, outcome]

/-- Only with settings and without an abort, a command ends with status zero. -/
theorem start_completes (done : (start r host w).result = .ok 0) :
    ∃ settings v, Settings.load host w.disk r.path = .ok settings ∧
      (r.command.body ⟨host, settings⟩).outcome w = (.ok (), v) ∧
      start r host w = ⟨.ok 0, v.printed, v.console, v⟩ := by
  cases loaded : Settings.load host w.disk r.path with
  | error why =>
    rw [start_of_fault r host w loaded] at done
    split at done <;> cases done
  | ok settings =>
    have performed : start r host w = perform r ⟨host, settings⟩ w := by rw [start, loaded]
    rw [performed, perform_eq_execute, execute] at done
    cases outcome : (r.command.body ⟨host, settings⟩).outcome w with
    | mk result v =>
      rw [outcome] at done
      cases result with
      | ok _ => exact ⟨settings, v, rfl, outcome, start_of_outcome loaded outcome⟩
      | error why => cases done

/-- A command line that completes is its command, run with the settings of its path in a world
that has nothing but the disk and the log. -/
theorem run_completes {texts : List String} {time : String} {d : Disk}
    (asked : read texts = .ok r) (done : (run texts host time d).result = .ok 0) :
    ∃ channel before settings v,
      Channel.configure r.verbose r.logFile d = (.ok (), channel, before) ∧
      Settings.load host before r.path = .ok settings ∧
      (r.command.body ⟨host, settings⟩).outcome
        { disk := before, channel := some channel, time := time } = (.ok (), v) ∧
      run texts host time d = ⟨.ok 0, v.printed, v.console, v⟩ := by
  cases configured : Channel.configure r.verbose r.logFile d with
  | mk result rest =>
    obtain ⟨channel, before⟩ := rest
    cases result with
    | error why =>
      rw [run, asked] at done
      dsimp only at done
      rw [configured] at done
      cases done
    | ok _ =>
      rw [run_eq_start host asked configured] at done ⊢
      obtain ⟨settings, v, loaded, outcome, ends⟩ := start_completes done
      exact ⟨channel, before, settings, v, rfl, loaded, outcome, ends⟩

def functionTree : String :=
  "\x7b\"key.typename\":\"ModuleDefinition\",\"key.substructure\":[" ++
    "\x7b\"key.name\":\"Function\"," ++
    "\"key.substructure\":[\x7b\"key.offset\":0,\"key.length\":1\x7d]\x7d]\x7d"

def functionTool : Tool := fun _ call =>
  match call with
  | .tree _ => .output (some functionTree)
  | .request _ _ => .missing

def sourceDisk : Disk :=
  { entries := [(["A.swift"], .file (Text.Utf8.encode "f".toList))], here := [] }

def sourceHost : Host := { tool := functionTool }

def sourceProject : Project := ⟨sourceHost, { root := ⟨.root, []⟩ }⟩

def sourceWorld : World := { disk := sourceDisk, channel := some ⟨false, none⟩ }

theorem load_source :
    Settings.load sourceHost sourceDisk ⟨.relative, []⟩ = .ok sourceProject.settings := rfl

theorem collect_source : sourceProject.collect.outcome sourceWorld =
    (sourceProject.collectFiles [⟨.root, ["A.swift"]⟩]).outcome sourceWorld :=
  Project.outcome_collect (eq_ok_of_toOption (by decide +kernel))

theorem run_source {texts : List String} {command : Command}
    (asked : read texts = .ok ⟨false, none, ⟨.relative, []⟩, command⟩)
    (outcome : (command.body sourceProject).outcome sourceWorld = (.ok (), v)) :
    run texts sourceHost "" sourceDisk = ⟨.ok 0, v.printed, v.console, v⟩ := by
  rw [run_eq_start sourceHost asked rfl]
  exact start_of_outcome load_source outcome

end CommandLine

end ModuleStubs
