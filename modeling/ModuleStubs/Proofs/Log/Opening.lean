import ModuleStubs.Proofs.Run.Account

/-! Setting up the log. No file is made, changed or removed but the one that the requested path
leads to; on the way there directories may be made. -/

namespace ModuleStubs

namespace Disk

def SameFiles (log : Option Location) (d e : Disk) : Prop :=
  ∀ l bytes, log ≠ some l → (e.item? l = some (.file bytes) ↔ d.item? l = some (.file bytes))

variable {log : Option Location} {d e f : Disk}

theorem SameFiles.refl (log : Option Location) (d : Disk) : SameFiles log d d :=
  fun _ _ _ => Iff.rfl

theorem SameFiles.trans (first : SameFiles log d e) (second : SameFiles log e f) :
    SameFiles log d f :=
  fun l bytes off => (second l bytes off).trans (first l bytes off)

theorem SameBut.sameFiles (same : SameBut log d e) : SameFiles log d e :=
  fun l _ off => by rw [same.item l off]

theorem SameBut.keeps (same : SameBut log d e)
    (ready : ∀ l, log = some l → ∃ bytes, d.item? l = some (.file bytes)) : Keeps d e := by
  refine ⟨same.here, fun l directory => ?_⟩
  by_cases lead : log = some l
  · obtain ⟨bytes, there⟩ := ready l lead
    rw [directory] at there
    cases there
  · rw [same.item l lead, directory]

theorem sameFiles_put {l : Location} (x : Entry) : SameFiles (some l) d (d.put l x) := by
  intro other bytes off
  have ne : other ≠ l := fun same => off (congrArg some same.symm)
  rw [item?_put_of_ne ne]

theorem sameFiles_makeDirectory {p : Path} (made : d.makeDirectory p = .ok e) :
    SameFiles log d e := by
  rw [makeDirectory] at made
  cases found : d.find p with
  | error why => rw [found] at made; cases made
  | ok l =>
    rw [found] at made
    change (if (d.item? l).isSome then _ else _) = Except.ok e at made
    split_ifs at made with taken allowed
    cases made
    have empty : d.item? l = none := Option.not_isSome_iff_eq_none.mp taken
    intro other bytes off
    by_cases same : other = l
    · subst same
      have apart : d.item? other ≠ some .directory := by simp [empty]
      rw [item?_put_self (ne_nil_of_item? apart), empty]
      simp
    · rw [item?_put_of_ne same]

theorem sameFiles_makeDirectories (log : Option Location) (d : Disk) (p : Path) :
    SameFiles log d (d.makeDirectories p).2 := by
  fun_induction makeDirectories d p with
  | case1 p e made => exact sameFiles_makeDirectory made
  | case2 => exact SameFiles.refl log d
  | case3 p subject missing inner why e above ih => rwa [above] at ih
  | case4 p subject missing inner done e above f made ih =>
    rw [above] at ih
    exact ih.trans (sameFiles_makeDirectory made)
  | case5 p subject missing inner done e above again failed ih => rwa [above] at ih
  | case6 p subject missing inner done e above why other failed ih => rwa [above] at ih
  | case7 => exact SameFiles.refl log d

theorem absolute_of_here (same : e.here = d.here) (p : Path) : e.absolute p = d.absolute p := by
  rw [absolute, absolute, same]

end Disk

namespace Channel

theorem openFile_eq_ok {d e : Disk} {p : Path} {l : Location}
    (opened : openFile d p = (.ok l, e)) :
    Disk.SameFiles (some l) d e ∧ e.find (d.absolute p) = .ok l := by
  have made := Disk.sameFiles_makeDirectories (some l) d p.parent
  have grown := Disk.grows_makeDirectories none d p.parent
  unfold openFile at opened
  split at opened
  · cases opened
  · next middle above =>
    rw [above] at made grown
    split at opened
    · cases opened
    · next goal located =>
      cases opened
      obtain ⟨found, apart⟩ := Disk.fileLocation_eq_ok located
      rw [Disk.absolute_of_here grown.here] at found
      refine ⟨made.trans (Disk.sameFiles_put _), ?_⟩
      exact Disk.find_of_keeps (Disk.keeps_put apart _) found

theorem configure_eq_ok {d e : Disk} {verbose : Bool} {logFile : Option Path} {c : Channel}
    (done : configure verbose logFile d = (.ok (), c, e)) :
    Disk.SameFiles c.file d e ∧
      ∀ l, c.file = some l → ∃ p, logFile = some p ∧ e.find (d.absolute p) = .ok l := by
  unfold configure at done
  split at done
  · cases done
    exact ⟨.refl _ d, nofun⟩
  · next p =>
    split at done
    · cases done
    · next l opened =>
      cases done
      obtain ⟨same, found⟩ := openFile_eq_ok opened
      refine ⟨same, ?_⟩
      rintro _ ⟨⟩
      exact ⟨p, rfl, found⟩

end Channel

end ModuleStubs
