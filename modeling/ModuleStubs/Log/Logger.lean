import ModuleStubs.Log.Channel
import ModuleStubs.Text.Cut

/-! The program's logger. Its handlers lay out records and write them to the console or to a
file. Setting it up replaces them; a record goes to those that its name leads to. -/

namespace ModuleStubs

inductive LineForm where
  | bare
  | brief
  | staged
  | dated
  deriving DecidableEq

structure Handler where
  form : LineForm
  level : Level
  file : Option Location
  deriving DecidableEq

def relativeName (name : String) : String :=
  match Text.after? (programName ++ ".").toList name.toList with
  | some stage => String.ofList stage
  | none => name

namespace Handler

def heading (h : Handler) (time : String) (r : Record) : String :=
  let stage := relativeName (stageName r.stage)
  match h.form with
  | .bare => ""
  | .brief => s!"[{programName}] {r.level.name} "
  | .staged => s!"[{programName}] {r.level.name} {stage}: "
  | .dated => s!"{time} {r.level.name} {stage}: "

def line (h : Handler) (time : String) (r : Record) : Wording :=
  Wording.ofString (h.heading time r) ++ r.message ++ Wording.ofString "\n"

def lastResort : Handler := ⟨.bare, .warning, none⟩

def takes (h : Handler) (r : Record) : Bool := h.level.rank ≤ r.level.rank

end Handler

structure Logger where
  level : Option Level := none
  propagates : Bool := true
  handlers : List Handler := []

namespace Logger

def attach (h : Handler) (l : Logger) : Logger := { l with handlers := l.handlers ++ [h] }

def clear (l : Logger) : Logger :=
  { l with handlers := l.handlers.foldl (fun left h => left.erase h) l.handlers }

end Logger

/-- The program's logger, the names of loggers that have been asked for, the handlers above all
loggers, and where handlers write. -/
structure Log where
  disk : Disk
  logger : Logger := {}
  known : List String := []
  outer : List Handler := []
  console : String := ""

namespace Log

def outerLevel : Level := .warning

def setUp (verbose : Bool) (s : Log) : Log :=
  let level : Level := if verbose then .debug else .info
  let console : Handler := ⟨if verbose then .staged else .brief, level, none⟩
  { s with
    logger := { s.logger with level := some level, propagates := false }.clear.attach console }

/-- A log file that cannot be opened leaves the console. -/
def configure (verbose : Bool) (logFile : Option Path) (s : Log) : Except DiskFault Unit × Log :=
  let s := s.setUp verbose
  match logFile with
  | none => (.ok (), s)
  | some p =>
    match Channel.openFile s.disk p with
    | (.error why, d) => (.error why, { s with disk := d })
    | (.ok l, d) =>
      let file : Handler := ⟨.dated, if verbose then .debug else .info, some l⟩
      (.ok (), { s with disk := d, logger := s.logger.attach file })

def lookUp (stage : String) (s : Log) : Log := { s with known := stageName stage :: s.known }

def levelFor (s : Log) (r : Record) : Level :=
  if r.isAttachedAmong s.known then s.logger.level.getD outerLevel else outerLevel

def handlersFor (s : Log) (r : Record) : List Handler :=
  let above := if s.logger.propagates then s.outer else []
  let all := if r.isAttachedAmong s.known then s.logger.handlers ++ above else s.outer
  if all.isEmpty then [Handler.lastResort] else all

def deliver (time : String) (r : Record) (s : Log) (h : Handler) : Log :=
  match h.file with
  | none => { s with console := s.console ++ (h.line time r).shown }
  | some l => { s with disk := Channel.append (h.line time r) l s.disk }

def emit (time : String) (r : Record) (s : Log) : Log :=
  let s := s.lookUp r.stage
  if (s.levelFor r).rank ≤ r.level.rank then
    ((s.handlersFor r).filter (·.takes r)).foldl (deliver time r) s
  else s

end Log

inductive LogEvent where
  | configure (verbose : Bool) (logFile : Option Path)
  | lookUp (stage : String)
  | record (time : String) (r : Record)

namespace Log

def step (s : Log) : LogEvent → Log
  | .configure verbose logFile => (s.configure verbose logFile).2
  | .lookUp stage => s.lookUp stage
  | .record time r => s.emit time r

def run (s : Log) (events : List LogEvent) : Log := events.foldl step s

end Log

end ModuleStubs
