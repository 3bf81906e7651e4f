import ModuleStubs.Disk.Access
import ModuleStubs.Log.Record

/-! Where records go: to the console, and to a file if one is asked for. The file is
only ever appended to. -/

namespace ModuleStubs

structure Channel where
  verbose : Bool
  file : Option Location

namespace Channel

def level (c : Channel) : Level := if c.verbose then .debug else .info

def passes (c : Channel) (r : Record) : Bool := c.level.rank ≤ r.level.rank

def consoleLine (c : Channel) (r : Record) : String :=
  let stage := if c.verbose then r.shownStage ++ ": " else ""
  s!"[{programName}] {r.level.name} {stage}{r.message.shown}\n"

def fileLine (time : String) (r : Record) : Wording :=
  Wording.ofString s!"{time} {r.level.name} {r.shownStage}: " ++ r.message ++ Wording.ofString "\n"

/-- A record that no channel takes is shown bare, from warnings on. -/
def strayLine (r : Record) : String :=
  if Level.warning.rank ≤ r.level.rank then r.message.shown ++ "\n" else ""

def console (channel : Option Channel) (r : Record) : String :=
  match channel with
  | none => strayLine r
  | some c =>
    if !r.isAttached then strayLine r else if c.passes r then c.consoleLine r else ""

/-- The disk after a line has been written to a log file; a torn line is lost. -/
def append (line : Wording) (l : Location) (d : Disk) : Disk :=
  match line.encode with
  | .ok bytes => d.extend l bytes
  | .error _ => d

def keep (channel : Option Channel) (time : String) (r : Record) (d : Disk) : Disk :=
  match channel with
  | none => d
  | some c =>
    match c.file with
    | none => d
    | some l => if r.isAttached && c.passes r then append (fileLine time r) l d else d

def openFile (d : Disk) (p : Path) : Except DiskFault Location × Disk :=
  match d.makeDirectories p.parent with
  | (.error why, d) => (.error why, d)
  | (.ok _, d) =>
    match d.fileLocation (d.absolute p) with
    | .error why => (.error why, d)
    | .ok l => (.ok l, d.extend l [])

/-- Sets up a channel. If its file cannot be opened, it writes to the console only. -/
def configure (verbose : Bool) (logFile : Option Path) (d : Disk) :
    Except DiskFault Unit × Channel × Disk :=
  match logFile with
  | none => (.ok (), ⟨verbose, none⟩, d)
  | some p =>
    match openFile d p with
    | (.error why, d) => (.error why, ⟨verbose, none⟩, d)
    | (.ok l, d) => (.ok (), ⟨verbose, some l⟩, d)

end Channel

end ModuleStubs
