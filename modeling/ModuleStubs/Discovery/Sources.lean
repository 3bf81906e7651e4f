import ModuleStubs.Discovery.Exclusion
import ModuleStubs.Discovery.Glob
import ModuleStubs.Settings.Basic
import ModuleStubs.SortedSet
import ModuleStubs.Tool.Session

/-! The sources of a project: the files that an include pattern stands for and that
are not left out, each once, in the order of paths. -/

namespace ModuleStubs

def Path.lt (p q : Path) : Bool := decide (p.components < q.components)

def isSource (d : Disk) (settings : Settings) (p : Path) : Except DiskFault Bool := do
  if ← d.isFile p then
    .ok (((settings.root.below? p).map fun rest => !isExcluded settings.excludes rest).getD true)
  else .ok false

def matching (d : Disk) (settings : Settings) (pattern : String) : Except Abort (List Path) := do
  let glob ← (Glob.read pattern).mapError .pattern
  ((glob.paths d settings.root >>= List.filterM (isSource d settings))).mapError .disk

def sources (d : Disk) (settings : Settings) : Except Abort (List Path) := do
  let found ← settings.includes.mapM (matching d settings)
  .ok (SortedSet.ofList Path.lt found.flatten)

end ModuleStubs
