import ModuleStubs.Path
import ModuleStubs.Text.Quoted
import ModuleStubs.Text.Utf8

/-! A disk as the entries at its locations. A location is the list of names from
the top directory down; the top directory itself is always there. -/

namespace ModuleStubs

abbrev Location := List String

inductive Entry where
  | directory
  | file (bytes : List UInt8)
  deriving DecidableEq

structure Disk where
  entries : List (Location × Entry)
  /-- Where relative paths start. -/
  here : Location
  /-- Whether an entry may be made or changed at a location. -/
  writable : Location → Bool := fun _ => true

inductive Refusal where
  | missing
  | denied
  | alreadyThere
  | notDirectory
  | isDirectory
  | nameTooLong
  deriving DecidableEq

def Refusal.number : Refusal → Nat
  | .missing => 2
  | .denied => 13
  | .alreadyThere => 17
  | .notDirectory => 20
  | .isDirectory => 21
  | .nameTooLong => 36

def Refusal.text : Refusal → String
  | .missing => "No such file or directory"
  | .denied => "Permission denied"
  | .alreadyThere => "File exists"
  | .notDirectory => "Not a directory"
  | .isDirectory => "Is a directory"
  | .nameTooLong => "File name too long"

inductive DiskFault where
  | refused (why : Refusal) (subject : String)
  /-- A path with a null character never reaches the disk. -/
  | nullCharacter

def DiskFault.message : DiskFault → String
  | .refused why subject => s!"[Errno {why.number}] {why.text}: {Text.quoted subject}"
  | .nullCharacter => "embedded null byte"

namespace Disk

def lookup (l : Location) (entries : List (Location × Entry)) : Option Entry :=
  (entries.find? fun entry => entry.1 = l).map (·.2)

def item? (d : Disk) (l : Location) : Option Entry :=
  if l = [] then some .directory else lookup l d.entries

def set (l : Location) (e : Entry) : List (Location × Entry) → List (Location × Entry)
  | [] => [(l, e)]
  | entry :: rest => if entry.1 = l then (l, e) :: rest else entry :: set l e rest

def put (d : Disk) (l : Location) (e : Entry) : Disk := { d with entries := set l e d.entries }

def names (d : Disk) (l : Location) : List String :=
  d.entries.filterMap fun entry => if entry.1.dropLast = l then entry.1.getLast? else none

def maxNameBytes : Nat := 255

def maxPathBytes : Nat := 4095

def byteLength (s : String) : Nat := (Text.Utf8.encode s.toList).length

def walk (d : Disk) (l : Location) : List String → Except Refusal Location
  | [] => .ok l
  | part :: parts =>
    match d.item? l with
    | none => .error .missing
    | some (.file _) => .error .notDirectory
    | some .directory =>
      if part = ".." then walk d l.dropLast parts
      else if maxNameBytes < byteLength part then .error .nameTooLong
      else walk d (l ++ [part]) parts

def start (d : Disk) (p : Path) : Location := if p.isAbsolute then [] else d.here

def hasNull (p : Path) : Bool := p.parts.any fun part => part.toList.contains (Char.ofNat 0)

/-- The location that a path leads to; something need not be there. -/
def find (d : Disk) (p : Path) : Except DiskFault Location :=
  if hasNull p then .error .nullCharacter
  else if maxPathBytes < byteLength p.text then .error (.refused .nameTooLong p.text)
  else (d.walk (d.start p) p.parts).mapError (.refused · p.text)

@[simp] theorem item?_nil (d : Disk) : d.item? [] = some .directory := by simp [item?]

theorem lookup_set_self (l : Location) (e : Entry) (entries : List (Location × Entry)) :
    lookup l (set l e entries) = some e := by
  induction entries with
  | nil => simp [set, lookup]
  | cons entry rest ih =>
    by_cases h : entry.1 = l
    · simp [set, lookup, h]
    · simpa [set, lookup, h] using ih

theorem lookup_set_of_ne {l other : Location} (h : other ≠ l) (e : Entry)
    (entries : List (Location × Entry)) :
    lookup other (set l e entries) = lookup other entries := by
  induction entries with
  | nil => simp [set, lookup, Ne.symm h]
  | cons entry rest ih =>
    by_cases hl : entry.1 = l
    · simp [set, lookup, hl, Ne.symm h]
    · by_cases ho : entry.1 = other
      · rw [set, if_neg hl]; simp [lookup, ho]
      · simpa [set, lookup, hl, ho] using ih

theorem item?_put_self {d : Disk} {l : Location} (h : l ≠ []) (e : Entry) :
    (d.put l e).item? l = some e := by
  simp [item?, h, put, lookup_set_self]

theorem item?_put_of_ne {d : Disk} {l other : Location} (h : other ≠ l) (e : Entry) :
    (d.put l e).item? other = d.item? other := by
  simp [item?, put, lookup_set_of_ne h]

end Disk

end ModuleStubs
