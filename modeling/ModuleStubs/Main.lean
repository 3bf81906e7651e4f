import ModuleStubs.CommandLine.Snapshot

/-! The program: it reads a snapshot from standard input, runs its own arguments as a
command line on it, and writes what has come of that to standard output. -/

namespace ModuleStubs.CommandLine

partial def readAll (input : IO.FS.Stream) (text : String) : IO String := do
  let line ← input.getLine
  if line.isEmpty then return text
  readAll input (text ++ line)

def runOn? (texts : List String) (text : String) : Option (String × Nat) :=
  (Snapshot.read? text).map fun snapshot =>
    let outcome := snapshot.run texts
    (Json.text Json.compact (Snapshot.report snapshot.disk outcome), outcome.status)

end ModuleStubs.CommandLine

def main (texts : List String) : IO UInt32 := do
  let text ← ModuleStubs.CommandLine.readAll (← IO.getStdin) ""
  match ModuleStubs.CommandLine.runOn? texts text with
  | none =>
    IO.eprintln "standard input holds no snapshot"
    return 2
  | some (report, status) =>
    IO.println report
    return status.toUInt32
