import ModuleStubs.Discovery.Wildcard
import ModuleStubs.Disk.Access

/-! Patterns for the paths below a directory. A part of two stars stands for any
number of directories; a part with other wildcards for the names that it fits; any
other part for itself. -/

namespace ModuleStubs

namespace Glob

inductive Step where
  | deep
  | wild (marks : List Wildcard.Mark)
  | named (part : String)

inductive Fault where
  | empty
  | absolute
  /-- Two stars beside other characters. -/
  | mixedDeep
  /-- A pattern of dots and slashes only. -/
  | nameless (slashAtEnd : Bool)

def Fault.message : Fault → String
  | .empty => "Unacceptable pattern: ''"
  | .absolute => "Non-relative patterns are unsupported"
  | .mixedDeep => "Invalid pattern: '**' can only be an entire path component"
  | .nameless false => "tuple index out of range"
  | .nameless true => "'_TerminatingSelector' object has no attribute 'select_from'"

def step (part : String) : Except Fault Step :=
  if part = "**" then .ok .deep
  else if Text.holds ['*', '*'] part.toList then .error .mixedDeep
  else if Wildcard.isWild part then .ok (.wild (Wildcard.marks part.toList))
  else .ok (.named part)

end Glob

structure Glob where
  steps : List Glob.Step
  /-- A slash at the end asks for directories. -/
  directoriesOnly : Bool

namespace Glob

def read (pattern : String) : Except Fault Glob := do
  let p := Path.ofString pattern
  let slashAtEnd := pattern.toList.getLast? = some '/'
  if pattern = "" then .error .empty
  else if p.isAbsolute then .error .absolute
  else if p.parts = [] then .error (.nameless slashAtEnd)
  else .ok ⟨← p.parts.mapM step, slashAtEnd⟩

def directoriesFrom (d : Disk) (l : Location) : List (List String) :=
  [] :: d.entries.filterMap fun entry =>
    if entry.2 = .directory ∧ entry.1 ≠ l ∧ l.isPrefixOf entry.1 then some (entry.1.drop l.length)
    else none

def mayEnd (onlyDirectories : Bool) (e : Option Entry) : Bool :=
  !onlyDirectories || e = some .directory

def follow (d : Disk) (directoriesOnly : Bool) : List Step → Path → Except DiskFault (List Path)
  | [], p => .ok [p]
  | .deep :: steps, p => do
    let l ← d.find p
    let found ← (directoriesFrom d l).mapM fun down =>
      follow d directoriesOnly steps ⟨p.anchor, p.parts ++ down⟩
    .ok found.flatten
  | .wild marks :: steps, p => do
    let l ← d.find p
    let fitting := (d.names l).filter fun name =>
      Wildcard.accepts marks name.toList &&
        mayEnd (directoriesOnly || !steps.isEmpty) (d.item? (l ++ [name]))
    let found ← fitting.mapM fun name => follow d directoriesOnly steps (p.child name)
    .ok found.flatten
  | .named part :: steps, p => do
    let below := p.child part
    let present ←
      if directoriesOnly || !steps.isEmpty then d.isDirectory below else d.exists? below
    if present then follow d directoriesOnly steps below else .ok []

def paths (d : Disk) (root : Path) (g : Glob) : Except DiskFault (List Path) := do
  if ← d.isDirectory root then follow d g.directoriesOnly g.steps root else .ok []

end Glob

end ModuleStubs
