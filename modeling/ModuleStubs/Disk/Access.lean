import ModuleStubs.Disk.Basic
import ModuleStubs.Text.Newline

/-! Reading and writing by path. Making directories may fail half way, so it hands
back the disk as it then is. -/

namespace ModuleStubs

namespace Disk

def stat (d : Disk) (p : Path) : Except DiskFault Entry := do
  match d.item? (← d.find p) with
  | some e => .ok e
  | none => .error (.refused .missing p.text)

/-- Whether what is at a path has a property; nothing there has none. Only a name
that is too long is an error. -/
def check (has : Entry → Bool) (d : Disk) (p : Path) : Except DiskFault Bool :=
  match d.stat p with
  | .ok e => .ok (has e)
  | .error (.refused .nameTooLong subject) => .error (.refused .nameTooLong subject)
  | .error _ => .ok false

def isDirectory (d : Disk) (p : Path) : Except DiskFault Bool := d.check (· = .directory) p

def isFile (d : Disk) (p : Path) : Except DiskFault Bool := d.check (· ≠ .directory) p

def exists? (d : Disk) (p : Path) : Except DiskFault Bool := d.check (fun _ => true) p

def read (d : Disk) (p : Path) : Except DiskFault (List UInt8) := do
  match ← d.stat p with
  | .file bytes => .ok bytes
  | .directory => .error (.refused .isDirectory p.text)

def fileLocation (d : Disk) (p : Path) : Except DiskFault Location := do
  let l ← d.find p
  if d.item? l = some .directory then .error (.refused .isDirectory p.text)
  else if d.writable l then .ok l
  else .error (.refused .denied p.text)

def write (d : Disk) (p : Path) (bytes : List UInt8) : Except DiskFault Disk :=
  (d.fileLocation p).map fun l => d.put l (.file bytes)

def contentAt (d : Disk) (l : Location) : List UInt8 :=
  match d.item? l with
  | some (.file bytes) => bytes
  | _ => []

def extend (d : Disk) (l : Location) (bytes : List UInt8) : Disk :=
  d.put l (.file (d.contentAt l ++ bytes))

def makeDirectory (d : Disk) (p : Path) : Except DiskFault Disk := do
  let l ← d.find p
  if (d.item? l).isSome then .error (.refused .alreadyThere p.text)
  else if d.writable l then .ok (d.put l .directory)
  else .error (.refused .denied p.text)

/-- A failure to make a directory does not count when there is one. -/
def excuse (d : Disk) (p : Path) : DiskFault → Except DiskFault Unit
  | .nullCharacter => .error .nullCharacter
  | why => do if ← d.isDirectory p then .ok () else .error why

def makeDirectories (d : Disk) (p : Path) : Except DiskFault Unit × Disk :=
  match d.makeDirectory p with
  | .ok d => (.ok (), d)
  | .error (.refused .missing subject) =>
    if _h : p.parts = [] then (.error (.refused .missing subject), d)
    else
      match makeDirectories d p.parent with
      | (.error why, d) => (.error why, d)
      | (.ok _, d) =>
        match d.makeDirectory p with
        | .ok d => (.ok (), d)
        | .error (.refused .missing subject) => (.error (.refused .missing subject), d)
        | .error why => (d.excuse p why, d)
  | .error why => (d.excuse p why, d)
termination_by p.parts.length
decreasing_by
  simp only [Path.parent, List.length_dropLast]
  have := List.length_pos_iff.mpr _h
  omega

def lexical (parts : List String) : Location :=
  parts.foldl (fun l part => if part = ".." then l.dropLast else l ++ [part]) []

def absolute (d : Disk) (p : Path) : Path :=
  if p.isAbsolute then ⟨p.anchor, lexical p.parts⟩ else ⟨.root, lexical (d.here ++ p.parts)⟩

def resolve (d : Disk) (p : Path) : Except DiskFault Path :=
  if hasNull p then .error .nullCharacter else .ok ⟨.root, (d.absolute p).parts⟩

end Disk

inductive TextFault where
  | disk (why : DiskFault)
  | encoding (why : Text.Utf8.Broken)

def TextFault.message : TextFault → String
  | .disk why => why.message
  | .encoding why => why.message

/-- The text of a file, with every line end as one line feed. -/
def Disk.readText (d : Disk) (p : Path) : Except TextFault String := do
  let bytes ← (d.read p).mapError .disk
  let cs ← (Text.Utf8.decode bytes).mapError .encoding
  .ok (String.ofList (Text.unifyNewlines cs))

end ModuleStubs
