import ModuleStubs.Discovery.Wildcard
import ModuleStubs.Path

/-! Which files are left out. Some directories never hold sources of a project; a
pattern that ends in a slash names further directories, any other pattern is a
wildcard for the whole path. -/

namespace ModuleStubs

def ignoredDirectories : List String :=
  [".git", ".build", "build", "node_modules", "Pods", "DerivedData"]

def isDirectoryPattern (pattern : String) : Bool := pattern.toList.getLast? = some '/'

/-- Whether the names of the pattern follow one another in the path, up to a slash. -/
def namesDirectoryOf (pattern : String) (p : Path) : Bool :=
  Text.holds ('/' :: pattern.toList) ('/' :: p.text.toList)

def excludedBy (p : Path) (pattern : String) : Bool :=
  if isDirectoryPattern pattern then namesDirectoryOf pattern p
  else Wildcard.fits pattern p.text

def liesInIgnored (p : Path) : Bool := p.components.dropLast.any ignoredDirectories.contains

def isExcluded (patterns : List String) (p : Path) : Bool :=
  liesInIgnored p || patterns.any (excludedBy p)

end ModuleStubs
