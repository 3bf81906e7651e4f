import ModuleStubs.Proofs.Log.Opening

/-! What log files hold. Opening a log file changes no file, and a record adds its line to the
log file or nothing. -/

namespace ModuleStubs

namespace Disk

def HasFile (d : Disk) (l : Location) : Prop := ∃ bytes, d.item? l = some (.file bytes)

section

variable {d e : Disk} {l : Location}

theorem contentAt_of_file {bytes : List UInt8} (there : d.item? l = some (.file bytes)) :
    d.contentAt l = bytes := by
  rw [contentAt, there]

theorem contentAt_of_not_hasFile (missing : ¬ d.HasFile l) : d.contentAt l = [] := by
  unfold contentAt
  split
  · next bytes there => exact absurd ⟨bytes, there⟩ missing
  · rfl

theorem SameFiles.hasFile (same : SameFiles none d e) : e.HasFile l ↔ d.HasFile l :=
  exists_congr fun bytes => same l bytes nofun

theorem SameFiles.contentAt (same : SameFiles none d e) : e.contentAt l = d.contentAt l := by
  by_cases there : d.HasFile l
  · obtain ⟨bytes, held⟩ := there
    rw [contentAt_of_file held, contentAt_of_file ((same l bytes nofun).mpr held)]
  · have missing : ¬ e.HasFile l := (not_congr same.hasFile).mpr there
    rw [contentAt_of_not_hasFile there, contentAt_of_not_hasFile missing]

/-- What is at a location that is no directory gets longer, and nothing else changes. -/
theorem contentAt_extend (apart : d.item? l ≠ some .directory) (bytes : List UInt8)
    (other : Location) :
    (d.extend l bytes).contentAt other = d.contentAt other ++ if l = other then bytes else [] := by
  split_ifs with same
  · subst same
    exact contentAt_of_file (item?_put_self (ne_nil_of_item? apart) _)
  · rw [List.append_nil, contentAt, extend, item?_put_of_ne (Ne.symm same), contentAt]

theorem hasFile_extend (apart : d.item? l ≠ some .directory) (bytes : List UInt8)
    (other : Location) : (d.extend l bytes).HasFile other ↔ d.HasFile other ∨ l = other := by
  by_cases same : l = other
  · subst same
    exact iff_of_true ⟨_, item?_put_self (ne_nil_of_item? apart) _⟩ (.inr rfl)
  · rw [or_iff_left same, HasFile, extend, item?_put_of_ne (Ne.symm same), HasFile]

end

end Disk

namespace Channel

variable {d : Disk}

theorem contentAt_openFile (d : Disk) (p : Path) (l : Location) :
    (openFile d p).2.contentAt l = d.contentAt l ∧
      ((openFile d p).2.HasFile l ↔ d.HasFile l ∨ (openFile d p).1 = .ok l) := by
  have made := Disk.sameFiles_makeDirectories none d p.parent
  unfold openFile
  split
  · next above =>
    rw [above] at made
    exact ⟨made.contentAt, by simpa using made.hasFile⟩
  · next middle above =>
    rw [above] at made
    split
    · exact ⟨made.contentAt, by simpa using made.hasFile⟩
    · next goal located =>
      obtain ⟨-, apart⟩ := Disk.fileLocation_eq_ok located
      rw [Disk.contentAt_extend apart, ite_self, List.append_nil, Disk.hasFile_extend apart]
      exact ⟨made.contentAt, or_congr made.hasFile (by simp)⟩

theorem contentAt_configure (verbose : Bool) (logFile : Option Path) (d : Disk) (l : Location) :
    (configure verbose logFile d).2.2.contentAt l = d.contentAt l ∧
      ((configure verbose logFile d).2.2.HasFile l ↔
        d.HasFile l ∨ (configure verbose logFile d).2.1.file = some l) := by
  unfold configure
  split
  · simp
  · next p =>
    have opened := contentAt_openFile d p l
    split
    · next failed =>
      rw [failed] at opened
      simpa using opened
    · next found =>
      rw [found] at opened
      simpa using opened

def added (c : Channel) (time : String) (r : Record) (l : Location) : List UInt8 :=
  if c.passes r ∧ c.file = some l then fileLineBytes time r else []

theorem contentAt_keep {c : Channel} (ready : Ready (some c) d) {r : Record}
    (attached : r.isAttached = true)
    (whole : c.passes r = true → c.file.isSome → r.message.Whole) (time : String) (l : Location) :
    (keep (some c) time r d).contentAt l = d.contentAt l ++ c.added time r l ∧
      ((keep (some c) time r d).HasFile l ↔ d.HasFile l) := by
  cases target : c.file with
  | none => simp [keep, added, target]
  | some goal =>
    obtain ⟨bytes, there⟩ := ready goal target
    have apart : d.item? goal ≠ some .directory := by simp [there]
    simp only [keep, added, target, attached, Bool.true_and, Option.some.injEq]
    by_cases passes : c.passes r = true
    · have written := whole passes (by simp [target])
      rw [if_pos passes, append_fileLine written, Disk.contentAt_extend apart,
        Disk.hasFile_extend apart]
      refine ⟨by simp [passes], or_iff_left_of_imp ?_⟩
      rintro rfl
      exact ⟨bytes, there⟩
    · simp [passes]

end Channel

end ModuleStubs
