import ModuleStubs.Disk.Assembly
import ModuleStubs.Proofs.Log.Contents
import ModuleStubs.Proofs.Log.Naming

/-! Where records go. A call that sets up the log leaves the logger with the handlers of one
channel, whatever it had, so the logger does with a record what the channel says. Over a course of
calls and records the console and the files get the lines that are for them, each once. Stages
that begin with a dot are left out: their names may not lead to the program's logger. So are torn
messages that are for a file: they have no bytes. -/

namespace ModuleStubs

theorem Logger.clear_eq (l : Logger) : l.clear = { l with handlers := [] } := by
  have none : ∀ hs : List Handler, hs.foldl (fun left h => left.erase h) hs = [] := by
    intro hs
    induction hs with
    | nil => rfl
    | cons h hs ih => rw [List.foldl_cons, List.erase_cons_head, ih]
  rw [Logger.clear, none]

namespace Log

def handlersOf (c : Channel) : List Handler :=
  ⟨if c.verbose then .staged else .brief, c.level, none⟩ ::
    c.file.toList.map fun l => ⟨.dated, c.level, some l⟩

def loggerOf (c : Channel) : Logger := ⟨some c.level, false, handlersOf c⟩

structure Serves (s : Log) (c : Channel) : Prop where
  logger : s.logger = loggerOf c
  ready : Channel.Ready (some c) s.disk

section

variable {s : Log} {c : Channel} {time : String} {r : Record}

theorem setUp_eq (verbose : Bool) (s : Log) :
    s.setUp verbose = { s with logger := loggerOf ⟨verbose, none⟩ } := by
  rw [setUp, Logger.clear_eq]
  rfl

/-- Setting up replaces all handlers by those of the channel, also where the log file cannot be
opened. -/
theorem configure_eq (verbose : Bool) (logFile : Option Path) (s : Log) :
    s.configure verbose logFile =
      ((Channel.configure verbose logFile s.disk).1,
        { s with
          disk := (Channel.configure verbose logFile s.disk).2.2
          logger := loggerOf (Channel.configure verbose logFile s.disk).2.1 }) := by
  unfold configure Channel.configure
  rw [setUp_eq]
  cases logFile with
  | none => rfl
  | some p =>
    cases opened : Channel.openFile s.disk p with
    | mk found d =>
      simp only [opened]
      cases found <;> rfl

theorem line_console (c : Channel) (time : String) (r : Record) :
    (Handler.line ⟨if c.verbose then .staged else .brief, c.level, none⟩ time r).shown =
      c.consoleLine r := by
  rw [Handler.line, Channel.consoleLine, Handler.heading, relativeName_stageName]
  cases c.verbose <;> simp [toString, String.append_assoc]

theorem line_file (c : Channel) (l : Location) (time : String) (r : Record) :
    Handler.line ⟨.dated, c.level, some l⟩ time r = Channel.fileLine time r := by
  rw [Handler.line, Handler.heading, Channel.fileLine, relativeName_stageName]

theorem level_of_mem_handlersOf {h : Handler} (mem : h ∈ handlersOf c) : h.level = c.level := by
  rcases List.mem_cons.mp mem with rfl | mem
  · rfl
  · obtain ⟨l, -, rfl⟩ := List.mem_map.mp mem
    rfl

theorem foldl_deliver (c : Channel) (time : String) (r : Record) (s : Log) :
    (handlersOf c).foldl (deliver time r) s =
      { s with
        console := s.console ++ c.consoleLine r
        disk := match c.file with
          | none => s.disk
          | some l => Channel.append (Channel.fileLine time r) l s.disk } := by
  rw [handlersOf, List.foldl_cons, deliver, line_console]
  cases c.file with
  | none => rfl
  | some l =>
    rw [← line_file c l]
    rfl

theorem emit_eq_ite (serves : s.Serves c)
    (attached : r.isAttachedAmong (s.lookUp r.stage).known = true) :
    s.emit time r =
      if c.passes r then (handlersOf c).foldl (deliver time r) (s.lookUp r.stage)
      else s.lookUp r.stage := by
  have logger : (s.lookUp r.stage).logger = loggerOf c := serves.logger
  have level : (s.lookUp r.stage).levelFor r = c.level := by
    rw [levelFor, attached, if_pos rfl, logger]
    rfl
  have handlers : (s.lookUp r.stage).handlersFor r = handlersOf c := by
    simp only [handlersFor, attached, logger, loggerOf, if_true, Bool.false_eq_true, if_false,
      List.append_nil]
    rfl
  change (if ((s.lookUp r.stage).levelFor r).rank ≤ r.level.rank then
    (((s.lookUp r.stage).handlersFor r).filter (·.takes r)).foldl (deliver time r)
      (s.lookUp r.stage) else s.lookUp r.stage) = _
  rw [level, handlers]
  by_cases heard : c.level.rank ≤ r.level.rank
  · have all : (handlersOf c).filter (·.takes r) = handlersOf c := by
      refine List.filter_eq_self.mpr fun h mem => ?_
      rw [Handler.takes, level_of_mem_handlersOf mem]
      exact decide_eq_true heard
    rw [if_pos heard, all, Channel.passes, if_pos (decide_eq_true heard)]
  · rw [if_neg heard, Channel.passes, if_neg (by simpa using heard)]

/-- What becomes of a record is what the channel says. -/
theorem emit_eq (serves : s.Serves c) (attached : r.isAttachedAmong (s.lookUp r.stage).known = true)
    (direct : r.isAttached = true) :
    s.emit time r =
      { s.lookUp r.stage with
        console := s.console ++ Channel.console (some c) r
        disk := Channel.keep (some c) time r s.disk } := by
  rw [emit_eq_ite serves attached, foldl_deliver, Channel.console, Channel.keep, direct]
  cases c.passes r with
  | true => cases c.file <;> rfl
  | false =>
    have same : s.console = s.console ++ "" := String.append_empty.symm
    cases c.file <;> exact congrArg (fun text => { s.lookUp r.stage with console := text }) same

end

end Log

structure Heard where
  channel : Channel
  time : String
  record : Record

namespace Heard

def passes (h : Heard) : Bool := h.channel.passes h.record

def consoleText (hs : List Heard) : String :=
  String.join ((hs.filter passes).map fun h => h.channel.consoleLine h.record)

def fileBytes (l : Location) (hs : List Heard) : List UInt8 :=
  (hs.filter fun h => h.passes && h.channel.file = some l).flatMap fun h =>
    Channel.fileLineBytes h.time h.record

def Writable (h : Heard) : Prop :=
  h.passes = true → h.channel.file.isSome → h.record.message.Whole

theorem consoleText_append (hs ks : List Heard) :
    consoleText (hs ++ ks) = consoleText hs ++ consoleText ks := by
  rw [consoleText, List.filter_append, List.map_append, String.join_append]
  rfl

theorem fileBytes_append (l : Location) (hs ks : List Heard) :
    fileBytes l (hs ++ ks) = fileBytes l hs ++ fileBytes l ks := by
  rw [fileBytes, List.filter_append, List.flatMap_append]
  rfl

theorem fileBytes_singleton (l : Location) (c : Channel) (time : String) (r : Record) :
    fileBytes l [⟨c, time, r⟩] = c.added time r l := by
  by_cases taken : c.passes r ∧ c.file = some l <;>
    simp [fileBytes, Channel.added, passes, taken]

end Heard

namespace Log

def fileOf (s : Log) (verbose : Bool) (logFile : Option Path) : Option Location :=
  match s.configure verbose logFile with
  | (.ok _, t) => logFile.bind fun p => (t.disk.find (s.disk.absolute p)).toOption
  | (.error _, _) => none

/-- The channel in force after an event. A call replaces it, whether it succeeds or not. -/
def channelAfter (s : Log) (c : Option Channel) : LogEvent → Option Channel
  | .configure verbose logFile => some ⟨verbose, s.fileOf verbose logFile⟩
  | .lookUp _ => c
  | .record _ _ => c

def inForce (s : Log) (c : Option Channel) : List LogEvent → Option Channel
  | [] => c
  | e :: es => (s.step e).inForce (s.channelAfter c e) es

def hear (c : Option Channel) : LogEvent → Option Heard
  | .record time r => c.map fun c => ⟨c, time, r⟩
  | .configure _ _ => none
  | .lookUp _ => none

def heard (s : Log) (c : Option Channel) : List LogEvent → List Heard
  | [] => []
  | e :: es => (hear c e).toList ++ (s.step e).heard (s.channelAfter c e) es

def logFiles (s : Log) : List LogEvent → List Location
  | [] => []
  | e :: es => ((s.channelAfter none e).bind Channel.file).toList ++ (s.step e).logFiles es

/-- A course of events from a channel on. In the end the logger has the handlers of the channel in
force; the console and each file hold what they held and then a line for each record that was
for them, and the only new files are log files. -/
structure Routed (s : Log) (c : Option Channel) (events : List LogEvent) (t : Log) : Prop where
  logger : ∀ last, s.inForce c events = some last → t.logger = loggerOf last
  console : t.console = s.console ++ Heard.consoleText (s.heard c events)
  contents : ∀ l, t.disk.contentAt l = s.disk.contentAt l ++ Heard.fileBytes l (s.heard c events)
  files : ∀ l, t.disk.HasFile l ↔ s.disk.HasFile l ∨ l ∈ s.logFiles events

theorem heard_cons {s : Log} (c : Option Channel) (e : LogEvent) (events : List LogEvent) :
    s.heard c (e :: events) =
      s.heard c [e] ++ (s.step e).heard (s.channelAfter c e) events := by
  rw [heard, heard, heard, List.append_nil]

theorem logFiles_cons {s : Log} (e : LogEvent) (events : List LogEvent) :
    s.logFiles (e :: events) = s.logFiles [e] ++ (s.step e).logFiles events := by
  rw [logFiles, logFiles, logFiles, List.append_nil]

section

variable {s t : Log} {c : Channel}

theorem channel_configure (s : Log) (verbose : Bool) (logFile : Option Path) :
    (Channel.configure verbose logFile s.disk).2.1 = ⟨verbose, s.fileOf verbose logFile⟩ := by
  unfold fileOf
  rw [configure_eq]
  cases logFile with
  | none => rfl
  | some p =>
    unfold Channel.configure
    rcases opened : Channel.openFile s.disk p with ⟨why | l, d⟩
    · simp only [opened]
    · obtain ⟨-, found⟩ := Channel.openFile_eq_ok opened
      simp only [opened]
      rw [Option.bind_some, found]
      rfl

theorem fileOf_isSome_iff (s : Log) (verbose : Bool) (logFile : Option Path) :
    (s.fileOf verbose logFile).isSome ↔
      logFile.isSome ∧ (s.configure verbose logFile).1 = .ok () := by
  have file : (Channel.configure verbose logFile s.disk).2.1.file = s.fileOf verbose logFile := by
    rw [channel_configure]
  rw [← file, configure_eq]
  cases logFile with
  | none => simp [Channel.configure]
  | some p =>
    unfold Channel.configure
    rcases opened : Channel.openFile s.disk p with ⟨why | l, d⟩ <;> simp [opened]

theorem serves_configure (verbose : Bool) (logFile : Option Path) (s : Log) :
    (s.configure verbose logFile).2.Serves ⟨verbose, s.fileOf verbose logFile⟩ := by
  rw [← channel_configure, configure_eq]
  refine ⟨rfl, fun l lead => ?_⟩
  exact (Channel.contentAt_configure verbose logFile s.disk l).2.mpr (.inr lead)

theorem routed_configure (c : Option Channel) (verbose : Bool) (logFile : Option Path) (s : Log) :
    s.Routed c [.configure verbose logFile] (s.configure verbose logFile).2 := by
  have kept := Channel.contentAt_configure verbose logFile s.disk
  refine ⟨?_, ?_, fun l => ?_, fun l => ?_⟩
  · rintro _ ⟨⟩
    exact (serves_configure verbose logFile s).logger
  · rw [configure_eq]
    exact String.append_empty.symm
  · rw [configure_eq]
    exact (kept l).1.trans (List.append_nil _).symm
  · rw [configure_eq]
    refine (kept l).2.trans (or_congr_right ?_)
    rw [channel_configure]
    simp [logFiles, channelAfter]

theorem routed_lookUp (serves : s.Serves c) (stage : String) :
    s.Routed (some c) [.lookUp stage] (s.lookUp stage) where
  logger := by
    rintro _ ⟨⟩
    exact serves.logger
  console := String.append_empty.symm
  contents _ := (List.append_nil _).symm
  files _ := (or_iff_left List.not_mem_nil).symm

theorem routed_record (serves : s.Serves c) (time : String) {r : Record}
    (named : r.stage.toList.head? ≠ some '.') (whole : Heard.Writable ⟨c, time, r⟩) :
    s.Routed (some c) [.record time r] (s.emit time r) := by
  have direct : r.isAttached = true := isAttachedAmong_of_head? named []
  have kept := Channel.contentAt_keep serves.ready direct whole time
  rw [emit_eq serves (isAttachedAmong_of_head? named _) direct]
  refine ⟨?_, ?_, fun l => ?_, fun l => ?_⟩
  · rintro _ ⟨⟩
    exact serves.logger
  · refine congrArg (s.console ++ ·) ?_
    rw [Channel.console, direct]
    cases passes : c.passes r <;> simp [heard, hear, Heard.consoleText, Heard.passes, passes]
  · refine (kept l).1.trans (congrArg (s.disk.contentAt l ++ ·) ?_)
    simp only [heard, hear, Option.map_some, Option.toList_some, List.append_nil,
      Heard.fileBytes_singleton]
  · exact (kept l).2.trans (or_iff_left List.not_mem_nil).symm

theorem Serves.lookUp (serves : s.Serves c) (stage : String) : (s.lookUp stage).Serves c :=
  ⟨serves.logger, serves.ready⟩

theorem Serves.record (serves : s.Serves c) (time : String) {r : Record}
    (named : r.stage.toList.head? ≠ some '.') : (s.emit time r).Serves c := by
  have direct : r.isAttached = true := isAttachedAmong_of_head? named []
  rw [emit_eq serves (isAttachedAmong_of_head? named _) direct]
  exact ⟨serves.logger, serves.ready.relogged (Channel.relogged_keep serves.ready time r)⟩

theorem Routed.cons {c : Option Channel} {e : LogEvent} {events : List LogEvent}
    (first : s.Routed c [e] (s.step e)) (rest : (s.step e).Routed (s.channelAfter c e) events t) :
    s.Routed c (e :: events) t where
  logger := rest.logger
  console := by
    rw [rest.console, first.console, heard_cons c e events, Heard.consoleText_append,
      String.append_assoc]
  contents l := by
    rw [rest.contents, first.contents, heard_cons c e events, Heard.fileBytes_append,
      List.append_assoc]
  files l := by
    rw [rest.files, first.files, logFiles_cons e events, List.mem_append, or_assoc]

theorem Routed.nil (serves : s.Serves c) : s.Routed (some c) [] s where
  logger := by
    rintro _ ⟨⟩
    exact serves.logger
  console := String.append_empty.symm
  contents _ := (List.append_nil _).symm
  files _ := (or_iff_left List.not_mem_nil).symm

theorem routed_run (serves : s.Serves c) {events : List LogEvent}
    (named : ∀ time r, .record time r ∈ events → r.stage.toList.head? ≠ some '.')
    (whole : ∀ h ∈ s.heard (some c) events, h.Writable) :
    s.Routed (some c) events (s.run events) := by
  induction events generalizing s c with
  | nil => exact .nil serves
  | cons e events ih =>
    have later : ∀ time r, .record time r ∈ events → r.stage.toList.head? ≠ some '.' :=
      fun time r mem => named time r (List.mem_cons_of_mem _ mem)
    rw [heard_cons] at whole
    obtain ⟨here, after⟩ := List.forall_mem_append.mp whole
    cases e with
    | configure verbose logFile =>
      have serving := serves_configure verbose logFile s
      exact (routed_configure _ verbose logFile s).cons (ih serving later after)
    | lookUp stage =>
      exact (routed_lookUp serves stage).cons (ih (serves.lookUp stage) later after)
    | record time r =>
      have begins := named time r List.mem_cons_self
      have writable := here ⟨c, time, r⟩ (by simp [heard, hear])
      exact (routed_record serves time begins writable).cons
        (ih (serves.record time begins) later after)

/-- From a call on, whatever the log was like before it, records go where the calls say. The
handlers of a call are its console and, if it is given a log file and succeeds, that file. -/
theorem records_routed (s : Log) (verbose : Bool) (logFile : Option Path) (events : List LogEvent)
    (named : ∀ time r, .record time r ∈ events → r.stage.toList.head? ≠ some '.')
    (whole : ∀ h ∈ s.heard none (.configure verbose logFile :: events), h.Writable) :
    s.Routed none (.configure verbose logFile :: events)
        (s.run (.configure verbose logFile :: events)) ∧
      ∀ (t : Log) (v : Bool) (f : Option Path),
        (t.fileOf v f).isSome ↔ f.isSome ∧ (t.configure v f).1 = .ok () :=
  ⟨(routed_configure none verbose logFile s).cons
    (routed_run (serves_configure verbose logFile s) named whole), fileOf_isSome_iff⟩

end

def untouched : Log := { disk := .blank [] }

def afterFirstCall : List LogEvent :=
  [.record "1" ⟨"extract", .debug, "a"⟩, .record "2" ⟨"extract", .warning, "b"⟩,
    .configure true (some ⟨.relative, ["run.log", "x"]⟩), .record "3" ⟨"stubs", .debug, "c"⟩]

def withRunLog : LogEvent := .configure false (some ⟨.relative, ["run.log"]⟩)

theorem record_mem_of_mem_heard {s : Log} {c : Option Channel} {events : List LogEvent} {h : Heard}
    (mem : h ∈ s.heard c events) : .record h.time h.record ∈ events := by
  induction events generalizing s c with
  | nil => cases mem
  | cons e events ih =>
    rcases List.mem_append.mp mem with here | later
    · cases e with
      | configure verbose logFile => cases here
      | lookUp stage => cases here
      | record time r =>
        obtain ⟨k, -, rfl⟩ := Option.map_eq_some_iff.mp (Option.mem_toList.mp here)
        exact List.mem_cons_self
    · exact List.mem_cons_of_mem e (ih later)

theorem three_records_routed :
    untouched.Routed none (withRunLog :: afterFirstCall)
        (untouched.run (withRunLog :: afterFirstCall)) ∧
      (untouched.run (withRunLog :: afterFirstCall)).logger.handlers = [⟨.staged, .debug, none⟩] ∧
      Heard.consoleText (untouched.heard none (withRunLog :: afterFirstCall)) =
        "[nativestub] WARNING b\n[nativestub] DEBUG stubs: c\n" ∧
      Heard.fileBytes ["run.log"] (untouched.heard none (withRunLog :: afterFirstCall)) =
        Text.Utf8.encode "2 WARNING extract: b\n".toList := by
  have named : ∀ time r, .record time r ∈ afterFirstCall → r.stage.toList.head? ≠ some '.' := by
    intro time r mem
    simp only [afterFirstCall, List.mem_cons, LogEvent.record.injEq, reduceCtorEq, List.not_mem_nil,
      false_or, or_false] at mem
    obtain ⟨-, rfl⟩ | ⟨-, rfl⟩ | ⟨-, rfl⟩ := mem <;> decide
  have whole : ∀ time r, .record time r ∈ afterFirstCall → r.message.Whole := by
    intro time r mem
    simp only [afterFirstCall, List.mem_cons, LogEvent.record.injEq, reduceCtorEq, List.not_mem_nil,
      false_or, or_false] at mem
    obtain ⟨-, rfl⟩ | ⟨-, rfl⟩ | ⟨-, rfl⟩ := mem <;> exact Wording.whole_ofString _
  have writable : ∀ h ∈ untouched.heard none (withRunLog :: afterFirstCall), h.Writable :=
    fun h mem _ _ => whole h.time h.record
      ((List.mem_cons.mp (record_mem_of_mem_heard mem)).resolve_left (by simp [withRunLog]))
  refine ⟨(records_routed untouched false _ afterFirstCall named writable).1, ?_, ?_, ?_⟩ <;>
    decide +kernel

def withTornRecord : List LogEvent :=
  [withRunLog, .record "1" ⟨"stubs", .info, [Json.ofUnit 0xD800]⟩]

/-- A stage that begins with a dot may go unheard with no other stage about, and a torn message
does not get into the log file. -/
theorem lead_record_unheard :
    (let events : List LogEvent := [.configure false none, .record "1" ⟨".lead", .info, "m"⟩]
    (untouched.run events).console = "" ∧
      Heard.consoleText (untouched.heard none events) = "[nativestub] INFO m\n" ∧
      ¬ untouched.Routed none events (untouched.run events)) ∧
    (untouched.run withTornRecord).disk.contentAt ["run.log"] = [] ∧
      Heard.fileBytes ["run.log"] (untouched.heard none withTornRecord) ≠ [] ∧
      ¬ untouched.Routed none withTornRecord (untouched.run withTornRecord) := by
  have empty : (untouched.run withTornRecord).disk.contentAt ["run.log"] = [] := by decide +kernel
  have bytes : Heard.fileBytes ["run.log"] (untouched.heard none withTornRecord) ≠ [] := by
    decide +kernel
  refine ⟨?_, empty, bytes, fun routed => ?_⟩
  · intro events
    have silent : (untouched.run events).console = "" := by decide +kernel
    have line : Heard.consoleText (untouched.heard none events) = "[nativestub] INFO m\n" := by
      decide +kernel
    refine ⟨silent, line, fun routed => ?_⟩
    have shown := routed.console
    rw [silent, line] at shown
    exact absurd shown (by decide)
  · have held := routed.contents ["run.log"]
    rw [empty] at held
    exact bytes (List.append_eq_nil_iff.mp held.symm).2

section

variable {s : Log} {time : String} {r : Record}

theorem emit_of_dotted (about : s.known = [stageName "."]) (alone : s.outer = [])
    (dotted : r.stage.toList.head? = some '.') :
    s.emit time r = { s.lookUp r.stage with console := s.console ++ Channel.strayLine r } := by
  have detached : r.isAttachedAmong (s.lookUp r.stage).known = false := by
    rw [lookUp, about]
    exact not_isAttachedAmong_of_head? dotted
  have level : (s.lookUp r.stage).levelFor r = .warning := by
    rw [levelFor, detached]
    rfl
  have handlers : (s.lookUp r.stage).handlersFor r = [Handler.lastResort] := by
    simp only [handlersFor, detached]
    simp [lookUp, alone]
  rw [emit]
  simp only [level, handlers, Channel.strayLine]
  by_cases loud : Level.warning.rank ≤ r.level.rank
  · simp [loud, Handler.takes, Handler.lastResort, deliver, Handler.line, Handler.heading, lookUp]
  · simp [loud, lookUp]

theorem length_strayLine_lt (c : Channel) (r : Record) :
    (Channel.strayLine r).length < (c.consoleLine r).length := by
  have short : (Channel.strayLine r).length ≤ r.message.shown.length + 1 := by
    unfold Channel.strayLine
    split_ifs
    · exact (String.length_append _ _).le
    · exact Nat.zero_le _
  have long : r.message.shown.length + 1 < (c.consoleLine r).length := by
    have mark : "[".length = 1 := rfl
    have stop : "\n".length = 1 := rfl
    simp only [Channel.consoleLine, String.length_append, toString, mark, stop]
    omega
  exact short.trans_lt long

/-- So each stage that begins with a dot has to be left out: whatever is set up, there is a course
that loses a record of it. -/
theorem not_routed_of_dotted (fresh : s.known = []) (alone : s.outer = [])
    (dotted : r.stage.toList.head? = some '.') (verbose : Bool) (logFile : Option Path)
    (passes : Channel.passes ⟨verbose, none⟩ r = true) :
    ¬ s.Routed none [.configure verbose logFile, .lookUp ".", .record time r]
      (s.run [.configure verbose logFile, .lookUp ".", .record time r]) := by
  intro routed
  have course : s.run [.configure verbose logFile, .lookUp ".", .record time r] =
      ((s.configure verbose logFile).2.lookUp ".").emit time r := rfl
  have about : ((s.configure verbose logFile).2.lookUp ".").known = [stageName "."] := by
    rw [configure_eq, lookUp, fresh]
  have still : ((s.configure verbose logFile).2.lookUp ".").outer = [] := by
    rw [configure_eq, lookUp, alone]
  have quiet : ((s.configure verbose logFile).2.lookUp ".").console = s.console := by
    rw [configure_eq, lookUp]
  have line : Heard.consoleText
      (s.heard none [.configure verbose logFile, .lookUp ".", .record time r]) =
        Channel.consoleLine ⟨verbose, s.fileOf verbose logFile⟩ r := by
    have taken : Channel.passes ⟨verbose, s.fileOf verbose logFile⟩ r = true := passes
    simp [heard, hear, channelAfter, Heard.consoleText, Heard.passes, taken]
  have shown := routed.console
  rw [course, emit_of_dotted about still dotted, quiet, line] at shown
  have lengths := congrArg String.length shown
  rw [String.length_append, String.length_append] at lengths
  exact absurd (Nat.add_left_cancel lengths) (length_strayLine_lt _ r).ne

theorem not_routed_of_torn (named : r.stage.toList.head? ≠ some '.') (torn : ¬ r.message.Whole)
    {verbose : Bool} {logFile : Option Path} {l : Location}
    (file : s.fileOf verbose logFile = some l)
    (passes : Channel.passes ⟨verbose, some l⟩ r = true) :
    ¬ s.Routed none [.configure verbose logFile, .record time r]
      (s.run [.configure verbose logFile, .record time r]) := by
  intro routed
  have serves := serves_configure verbose logFile s
  rw [file] at serves
  have direct : r.isAttached = true := isAttachedAmong_of_head? named []
  have disk : (s.run [.configure verbose logFile, .record time r]).disk =
      (s.configure verbose logFile).2.disk := by
    change ((s.configure verbose logFile).2.emit time r).disk = _
    rw [emit_eq serves (isAttachedAmong_of_head? named _) direct]
    simp only [Channel.keep, direct, passes, Bool.and_self, if_true]
    exact Channel.append_of_torn (fun whole => torn (Channel.whole_fileLine_iff.mp whole)) l _
  have before : (s.configure verbose logFile).2.disk.contentAt l = s.disk.contentAt l := by
    rw [configure_eq]
    exact (Channel.contentAt_configure verbose logFile s.disk l).1
  have line : s.heard none [.configure verbose logFile, .record time r] =
      [⟨⟨verbose, some l⟩, time, r⟩] := by
    simp [heard, hear, channelAfter, file]
  have held := routed.contents l
  rw [disk, before, line, Heard.fileBytes_singleton, Channel.added, if_pos ⟨passes, rfl⟩] at held
  exact Channel.fileLineBytes_ne_nil time r (List.append_cancel_left
    (held.symm.trans (List.append_nil _).symm))

end

end Log

end ModuleStubs
