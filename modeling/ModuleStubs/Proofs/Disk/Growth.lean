import ModuleStubs.Disk.Access
import ModuleStubs.Proofs.Results
import ModuleStubs.Proofs.Text.Encoding

/-! How a disk changes while files are written. Directories stay, so a path that leads
somewhere goes on leading there. Files stay as well, and only the log file gets longer. -/

namespace ModuleStubs

namespace Disk

structure Keeps (d e : Disk) : Prop where
  here : e.here = d.here
  directory : ∀ l, d.item? l = some .directory → e.item? l = some .directory

theorem Keeps.refl (d : Disk) : Keeps d d := ⟨rfl, fun _ h => h⟩

theorem Keeps.trans {d e f : Disk} (first : Keeps d e) (second : Keeps e f) : Keeps d f :=
  ⟨second.here.trans first.here, fun l h => second.directory l (first.directory l h)⟩

theorem walk_of_keeps {d e : Disk} (kept : Keeps d e) {parts : List String} {l goal : Location}
    (h : d.walk l parts = .ok goal) : e.walk l parts = .ok goal := by
  induction parts generalizing l with
  | nil => exact h
  | cons part parts ih =>
    rw [walk] at h ⊢
    split at h
    · cases h
    · cases h
    -- A name is followed from a directory only, and directories stay.
    · next directory =>
      rw [kept.directory l directory]
      split_ifs at h ⊢
      · exact ih h
      · exact ih h

/-- Where a path leads once, it leads for good. -/
theorem find_of_keeps {d e : Disk} (kept : Keeps d e) {p : Path} {l : Location}
    (h : d.find p = .ok l) : e.find p = .ok l := by
  have start : e.start p = d.start p := by rw [Disk.start, Disk.start, kept.here]
  rw [find] at h ⊢
  split_ifs at h ⊢
  rw [start]
  cases walked : d.walk (d.start p) p.parts with
  | error why => rw [walked] at h; cases h
  | ok goal => rw [walked] at h; rwa [walk_of_keeps kept walked]

theorem find_ne_null {d : Disk} {p : Path} (clean : hasNull p = false) :
    d.find p ≠ .error .nullCharacter := by
  rw [find, clean, if_neg Bool.false_ne_true]
  intro same
  split_ifs at same
  · cases same
  · cases walked : d.walk (d.start p) p.parts with
    | error why =>
      rw [walked] at same
      cases same
    | ok l =>
      rw [walked] at same
      cases same

theorem keeps_put {d : Disk} {l : Location} (apart : d.item? l ≠ some .directory) (e : Entry) :
    Keeps d (d.put l e) := by
  refine ⟨rfl, fun other h => ?_⟩
  have ne : other ≠ l := by
    rintro rfl
    exact apart h
  rwa [item?_put_of_ne ne]

theorem ne_nil_of_item? {d : Disk} {l : Location} (apart : d.item? l ≠ some .directory) :
    l ≠ [] := by
  rintro rfl
  exact apart (item?_nil d)

/-- The file at a location holds the given bytes; more may follow in the log file only. -/
def Holds (log : Option Location) (e : Disk) (l : Location) (bytes : List UInt8) : Prop :=
  ∃ more, e.item? l = some (.file (bytes ++ more)) ∧ (log ≠ some l → more = [])

/-- Nothing is lost; only the file at one location, if any, is appended to. -/
structure Grows (log : Option Location) (d e : Disk) : Prop extends Keeps d e where
  file : ∀ l bytes, d.item? l = some (.file bytes) → Holds log e l bytes

section

variable {log : Option Location} {d e f : Disk}

theorem Holds.of_item? {l : Location} {bytes : List UInt8}
    (there : d.item? l = some (.file bytes)) : Holds log d l bytes :=
  ⟨[], by rwa [List.append_nil], fun _ => rfl⟩

theorem Holds.mono {l : Location} {bytes : List UInt8} (held : Holds log d l bytes)
    (later : ∀ bytes, d.item? l = some (.file bytes) → Holds log e l bytes) :
    Holds log e l bytes := by
  obtain ⟨early, found, quiet⟩ := held
  obtain ⟨late, last, still⟩ := later _ found
  refine ⟨early ++ late, by rwa [← List.append_assoc], fun other => ?_⟩
  rw [quiet other, still other, List.append_nil]

theorem Grows.refl (log : Option Location) (d : Disk) : Grows log d d :=
  ⟨Keeps.refl d, fun _ _ => Holds.of_item?⟩

theorem Grows.trans (first : Grows log d e) (second : Grows log e f) : Grows log d f :=
  ⟨first.toKeeps.trans second.toKeeps,
    fun l bytes h => (first.file l bytes h).mono (second.file l)⟩

theorem grows_put_of_none {l : Location} (empty : d.item? l = none) (x : Entry) :
    Grows log d (d.put l x) := by
  have apart : d.item? l ≠ some .directory := by rw [empty]; exact nofun
  refine ⟨keeps_put apart x, fun other bytes h => Holds.of_item? ?_⟩
  have ne : other ≠ l := by
    rintro rfl
    rw [empty] at h
    cases h
  rwa [item?_put_of_ne ne]

theorem grows_makeDirectory {p : Path} (made : d.makeDirectory p = .ok e) : Grows log d e := by
  rw [makeDirectory] at made
  cases found : d.find p with
  | error why => rw [found] at made; cases made
  | ok l =>
    rw [found] at made
    change (if (d.item? l).isSome then _ else _) = Except.ok e at made
    split_ifs at made with taken allowed
    · cases made
      exact grows_put_of_none (Option.not_isSome_iff_eq_none.mp taken) .directory

theorem grows_makeDirectories (log : Option Location) (d : Disk) (p : Path) :
    Grows log d (d.makeDirectories p).2 := by
  fun_induction makeDirectories d p with
  | case1 p e made => exact grows_makeDirectory made
  | case2 => exact Grows.refl log d
  | case3 p subject missing inner why e above ih => rwa [above] at ih
  | case4 p subject missing inner done e above f made ih =>
    rw [above] at ih
    exact ih.trans (grows_makeDirectory made)
  | case5 p subject missing inner done e above again failed ih => rwa [above] at ih
  | case6 p subject missing inner done e above why other failed ih => rwa [above] at ih
  | case7 => exact Grows.refl log d

theorem item?_extend {l : Location} {held : List UInt8} (there : d.item? l = some (.file held))
    (bytes : List UInt8) : (d.extend l bytes).item? l = some (.file (held ++ bytes)) := by
  have apart : d.item? l ≠ some .directory := by rw [there]; exact nofun
  rw [extend, item?_put_self (ne_nil_of_item? apart), contentAt, there]

theorem grows_extend {l : Location} {held : List UInt8} (there : d.item? l = some (.file held))
    (bytes : List UInt8) : Grows (some l) d (d.extend l bytes) := by
  have apart : d.item? l ≠ some .directory := by rw [there]; exact nofun
  refine ⟨keeps_put apart _, fun other old h => ?_⟩
  by_cases same : other = l
  · subst same
    rw [there] at h
    cases h
    exact ⟨bytes, item?_extend there bytes, fun ne => absurd rfl ne⟩
  · apply Holds.of_item?
    rwa [extend, item?_put_of_ne same]

theorem fileLocation_eq_ok {p : Path} {l : Location} (h : d.fileLocation p = .ok l) :
    d.find p = .ok l ∧ d.item? l ≠ some .directory := by
  rw [fileLocation] at h
  cases found : d.find p with
  | error why => rw [found] at h; cases h
  | ok goal =>
    rw [found] at h
    change (if d.item? goal = some .directory then _ else _) = Except.ok l at h
    split_ifs at h with directory allowed
    cases h
    exact ⟨rfl, directory⟩

theorem write_eq_ok {p : Path} {bytes : List UInt8} (h : d.write p bytes = .ok e) :
    ∃ l, d.find p = .ok l ∧ d.item? l ≠ some .directory ∧ e = d.put l (.file bytes) := by
  rw [write] at h
  cases located : d.fileLocation p with
  | error why => rw [located] at h; cases h
  | ok l =>
    rw [located] at h
    cases h
    obtain ⟨found, apart⟩ := fileLocation_eq_ok located
    exact ⟨l, found, apart, rfl⟩

theorem stat_of_find {p : Path} {l : Location} (found : d.find p = .ok l) :
    d.stat p = match d.item? l with
      | some e => .ok e
      | none => .error (.refused .missing p.text) := by
  rw [stat, found]
  rfl

theorem check_eq_true_iff {has : Entry → Bool} {p : Path} : d.check has p = .ok true ↔
    ∃ l x, d.find p = .ok l ∧ d.item? l = some x ∧ has x = true := by
  rw [check]
  cases found : d.find p with
  | error why =>
    have lost : d.stat p = .error why := by
      rw [stat, found]
      rfl
    rw [lost]
    constructor
    · intro same
      split at same
      · next other => cases other
      · cases same
      · cases same
    · rintro ⟨l, x, there, -⟩
      cases there
  | ok l =>
    rw [stat_of_find found]
    constructor
    · intro same
      rcases there : d.item? l with _ | x
      · rw [there] at same
        cases same
      · rw [there] at same
        exact ⟨l, x, rfl, there, Except.ok.inj same⟩
    · rintro ⟨other, x, same, there, holds⟩
      cases same
      rw [there]
      exact congrArg Except.ok holds

theorem isFile_eq_true_iff {p : Path} : d.isFile p = .ok true ↔
    ∃ l bytes, d.find p = .ok l ∧ d.item? l = some (.file bytes) := by
  rw [isFile, check_eq_true_iff]
  constructor
  · rintro ⟨l, x, found, there, other⟩
    cases x with
    | directory => simp at other
    | file bytes => exact ⟨l, bytes, found, there⟩
  · rintro ⟨l, bytes, found, there⟩
    exact ⟨l, _, found, there, rfl⟩

theorem read_eq_ok_iff {p : Path} {l : Location} (found : d.find p = .ok l)
    {bytes : List UInt8} : d.read p = .ok bytes ↔ d.item? l = some (.file bytes) := by
  rw [read, stat_of_find found]
  cases d.item? l with
  | none => exact ⟨nofun, nofun⟩
  | some e =>
    cases e with
    | directory => exact ⟨nofun, nofun⟩
    | file held =>
      rw [Option.some.injEq, Entry.file.injEq]
      exact ⟨Except.ok.inj, congrArg Except.ok⟩

end

end Disk

end ModuleStubs
