import ModuleStubs.Disk.Access

/-! Disks put together from entries, and what sets one disk apart from an earlier
one. A file or directory that is added brings the directories above it along. -/

namespace ModuleStubs.Disk

def blank (here : Location) : Disk := { entries := [], here := here }

def addMissing (d : Disk) (l : Location) : Disk :=
  if (d.item? l).isSome then d else d.put l .directory

def addDirectory (d : Disk) (l : Location) : Disk :=
  ((List.range (l.length + 1)).map l.take).foldl addMissing d

def addFile (d : Disk) (l : Location) (bytes : List UInt8) : Disk :=
  (d.addDirectory l.dropLast).put l (.file bytes)

def changesSince (before after : Disk) : List (Location × Entry) :=
  after.entries.filter fun entry => before.item? entry.1 ≠ some entry.2

end ModuleStubs.Disk
