import ModuleStubs.Proofs.Disk.Growth

/-! Disks that are alike. Where a path leads, and whether something can be written there, depends
on the directories alone; what a path leads to, beyond the bytes of a file, does not depend on
what is in the log file. -/

namespace ModuleStubs

def Entry.isDirectory : Entry → Bool
  | .directory => true
  | .file _ => false

namespace Disk

/-- Disks with the same directories, whatever files they have. -/
structure SameDirectories (d e : Disk) : Prop where
  here : e.here = d.here
  writable : e.writable = d.writable
  directory : ∀ l, e.item? l = some .directory ↔ d.item? l = some .directory

/-- Disks with the same directories and files. Only in the log file there may be other bytes. -/
structure Relogged (log : Option Location) (d e : Disk) : Prop where
  here : e.here = d.here
  writable : e.writable = d.writable
  kind : ∀ l, (e.item? l).map Entry.isDirectory = (d.item? l).map Entry.isDirectory
  item : ∀ l, log ≠ some l → e.item? l = d.item? l

section

variable {d e f : Disk} {p : Path} {l : Location}

theorem SameDirectories.refl (d : Disk) : SameDirectories d d := ⟨rfl, rfl, fun _ => Iff.rfl⟩

theorem SameDirectories.symm (h : SameDirectories d e) : SameDirectories e d :=
  ⟨h.here.symm, h.writable.symm, fun l => (h.directory l).symm⟩

theorem SameDirectories.trans (h : SameDirectories d e) (k : SameDirectories e f) :
    SameDirectories d f :=
  ⟨k.here.trans h.here, k.writable.trans h.writable,
    fun l => (k.directory l).trans (h.directory l)⟩

theorem SameDirectories.keeps (h : SameDirectories d e) : Keeps d e :=
  ⟨h.here, fun l => (h.directory l).mpr⟩

theorem sameDirectories_put (apart : d.item? l ≠ some .directory) (bytes : List UInt8) :
    SameDirectories d (d.put l (.file bytes)) := by
  refine ⟨rfl, rfl, fun other => ?_⟩
  by_cases here : other = l
  · rw [here, item?_put_self (ne_nil_of_item? apart)]
    exact ⟨nofun, fun taken => absurd taken apart⟩
  · rw [item?_put_of_ne here]

theorem find_eq_ok_iff (same : SameDirectories d e) : e.find p = .ok l ↔ d.find p = .ok l :=
  ⟨find_of_keeps same.symm.keeps, find_of_keeps same.keeps⟩

theorem fileLocation_eq_ok_iff : d.fileLocation p = .ok l ↔
    d.find p = .ok l ∧ d.item? l ≠ some .directory ∧ d.writable l = true := by
  constructor
  · intro located
    obtain ⟨found, apart⟩ := fileLocation_eq_ok located
    refine ⟨found, apart, ?_⟩
    rw [fileLocation, found] at located
    change (if d.item? l = some .directory then _ else if d.writable l then _ else _) = _ at located
    rw [if_neg apart] at located
    split_ifs at located with allowed
    exact allowed
  · rintro ⟨found, apart, allowed⟩
    rw [fileLocation, found]
    change (if d.item? l = some .directory then _ else if d.writable l then _ else _) = _
    rw [if_neg apart, if_pos allowed]

theorem fileLocation_null_iff : d.fileLocation p = .error .nullCharacter ↔ hasNull p = true := by
  constructor
  · intro failed
    rw [← Bool.not_eq_false]
    intro clean
    cases found : d.find p with
    | error why =>
      rw [fileLocation, found] at failed
      exact find_ne_null clean (found.trans failed)
    | ok l =>
      rw [fileLocation, found] at failed
      change (if d.item? l = some .directory then _
        else if d.writable l then _ else _) = _ at failed
      split_ifs at failed <;> cases failed
  · intro bad
    rw [fileLocation, find, if_pos bad]
    rfl

theorem fileLocation_ok_congr (same : SameDirectories d e) :
    e.fileLocation p = .ok l ↔ d.fileLocation p = .ok l := by
  rw [fileLocation_eq_ok_iff, fileLocation_eq_ok_iff, find_eq_ok_iff same, same.writable, Ne,
    same.directory]

end

section

variable {log : Option Location} {d e f : Disk}

theorem Relogged.refl (log : Option Location) (d : Disk) : Relogged log d d :=
  ⟨rfl, rfl, fun _ => rfl, fun _ _ => rfl⟩

theorem Relogged.symm (h : Relogged log d e) : Relogged log e d :=
  ⟨h.here.symm, h.writable.symm, fun l => (h.kind l).symm, fun l off => (h.item l off).symm⟩

theorem Relogged.trans (h : Relogged log d e) (k : Relogged log e f) : Relogged log d f :=
  ⟨k.here.trans h.here, k.writable.trans h.writable, fun l => (k.kind l).trans (h.kind l),
    fun l off => (k.item l off).trans (h.item l off)⟩

theorem Relogged.cases (h : Relogged log d e) (l : Location) :
    (d.item? l = none ∧ e.item? l = none) ∨
      (d.item? l = some .directory ∧ e.item? l = some .directory) ∨
      ∃ bytes others, d.item? l = some (.file bytes) ∧ e.item? l = some (.file others) := by
  have kind := h.kind l
  rcases first : d.item? l with _ | ⟨_ | bytes⟩ <;>
    rcases second : e.item? l with _ | ⟨_ | others⟩ <;>
    rw [first, second] at kind <;> simp_all [Entry.isDirectory]

theorem Relogged.sameDirectories (h : Relogged log d e) : SameDirectories d e := by
  refine ⟨h.here, h.writable, fun l => ?_⟩
  rcases h.cases l with ⟨first, second⟩ | ⟨first, second⟩ | ⟨bytes, others, first, second⟩ <;>
    simp [first, second]

theorem Relogged.put (h : Relogged log d e) (l : Location) (x : Entry) :
    Relogged log (d.put l x) (e.put l x) := by
  have either : ∀ other, (d.put l x).item? other = (e.put l x).item? other ∨
      (d.put l x).item? other = d.item? other ∧ (e.put l x).item? other = e.item? other := by
    intro other
    by_cases here : other = l
    · subst here
      by_cases top : other = []
      · exact .inr ⟨by rw [top, item?_nil, item?_nil], by rw [top, item?_nil, item?_nil]⟩
      · exact .inl (by rw [item?_put_self top, item?_put_self top])
    · exact .inr ⟨item?_put_of_ne here x, item?_put_of_ne here x⟩
  refine ⟨h.here, h.writable, fun other => ?_, fun other off => ?_⟩
  · rcases either other with same | ⟨first, second⟩
    · rw [same]
    · rw [first, second, h.kind]
  · rcases either other with same | ⟨first, second⟩
    · exact same.symm
    · rw [first, second, h.item other off]

theorem relogged_extend {l : Location} {held : List UInt8}
    (there : d.item? l = some (.file held)) (bytes : List UInt8) :
    Relogged (some l) d (d.extend l bytes) := by
  have apart : d.item? l ≠ some .directory := by rw [there]; exact nofun
  refine ⟨rfl, rfl, fun other => ?_, fun other off => ?_⟩
  · by_cases here : other = l
    · rw [here, item?_extend there, there]
      rfl
    · rw [extend, item?_put_of_ne here]
  · have ne : other ≠ l := fun same => off (congrArg some same.symm)
    rw [extend, item?_put_of_ne ne]

theorem Relogged.walk (h : Relogged log d e) (parts : List String) (l : Location) :
    e.walk l parts = d.walk l parts := by
  induction parts generalizing l with
  | nil => rfl
  | cons part parts ih =>
    rw [Disk.walk, Disk.walk]
    rcases h.cases l with ⟨first, second⟩ | ⟨first, second⟩ | ⟨bytes, others, first, second⟩
    · rw [first, second]
    · rw [first, second]
      simp only [ih]
    · rw [first, second]

theorem Relogged.find (h : Relogged log d e) (p : Path) : e.find p = d.find p := by
  rw [Disk.find, Disk.find, start, start, h.here, h.walk]

theorem Relogged.isDirectory (h : Relogged log d e) (p : Path) :
    e.isDirectory p = d.isDirectory p := by
  rw [Disk.isDirectory, Disk.isDirectory, check, check]
  cases found : d.find p with
  | error why =>
    have found' : e.find p = .error why := (h.find p).trans found
    rw [stat, stat, found, found']
    rfl
  | ok l =>
    rw [stat_of_find found, stat_of_find ((h.find p).trans found)]
    rcases h.cases l with ⟨first, second⟩ | ⟨first, second⟩ | ⟨bytes, others, first, second⟩ <;>
      rw [first, second]
    simp

theorem Relogged.excuse (h : Relogged log d e) (p : Path) (why : DiskFault) :
    e.excuse p why = d.excuse p why := by
  cases why with
  | nullCharacter => rfl
  | refused why subject => simp only [Disk.excuse, h.isDirectory]

end

end Disk

end ModuleStubs
