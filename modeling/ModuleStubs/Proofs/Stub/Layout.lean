import ModuleStubs.Proofs.Disk.Alike
import ModuleStubs.Stub.Output

/-! How stubs are laid out from disk to disk. Where the template of the project is the same, so is
the text that a module gets, whether or not it has been settled before which template is taken. -/

namespace ModuleStubs

/-- The template is on both disks, with one text, or on neither. -/
structure Templates.Alike (t : Templates) (d e : Disk) : Prop where
  there : t.isThere e = t.isThere d
  text : t.isThere d = true → e.readText t.path = d.readText t.path

namespace Templates

variable {t : Templates} {d e f : Disk}

theorem Alike.refl (t : Templates) (d : Disk) : t.Alike d d := ⟨rfl, fun _ => rfl⟩

theorem Alike.trans (first : t.Alike d e) (second : t.Alike e f) : t.Alike d f :=
  ⟨second.there.trans first.there,
    fun there => (second.text (first.there.trans there)).trans (first.text there)⟩

theorem Alike.symm (same : t.Alike d e) : t.Alike e d :=
  ⟨same.there.symm, fun there => (same.text (same.there.symm.trans there)).symm⟩

theorem isThere_iff : t.isThere d = true ↔
    ∃ l bytes, d.find t.path = .ok l ∧ d.item? l = some (.file bytes) := by
  rw [← Disk.isFile_eq_true_iff, isThere]
  rcases d.isFile t.path with why | ⟨_ | _⟩
  · exact ⟨nofun, nofun⟩
  · exact ⟨nofun, nofun⟩
  · exact ⟨fun _ => rfl, fun _ => rfl⟩

theorem alike_of_item? (leads : ∀ l, e.find t.path = .ok l ↔ d.find t.path = .ok l)
    (item : ∀ l, d.find t.path = .ok l →
      e.item? l = d.item? l ∨ d.item? l = none ∧ e.item? l = some .directory) : t.Alike d e := by
  have same : t.isThere e = true ↔ t.isThere d = true := by
    simp only [isThere_iff, leads]
    refine exists_congr fun l => exists_congr fun bytes => and_congr_right fun found => ?_
    rcases item l found with same | ⟨empty, made⟩
    · rw [same]
    · rw [empty, made]
      exact ⟨nofun, nofun⟩
  refine ⟨Bool.eq_iff_iff.mpr same, fun there => ?_⟩
  obtain ⟨l, bytes, found, held⟩ := isThere_iff.mp there
  have held' : e.item? l = some (.file bytes) := by
    rcases item l found with same | ⟨empty, -⟩
    · exact same.trans held
    · exact nomatch empty.symm.trans held
  rw [Disk.readText, Disk.readText, (Disk.read_eq_ok_iff found).mpr held,
    (Disk.read_eq_ok_iff ((leads l).mpr found)).mpr held']

theorem alike_of_relogged {log : Option Location} (same : Disk.Relogged log d e)
    (apart : ∀ l, d.find t.path = .ok l → log ≠ some l) : t.Alike d e :=
  alike_of_item? (fun l => by rw [same.find]) fun l found => .inl (same.item l (apart l found))

theorem alike_put {l : Location} {bytes : List UInt8} (apart : d.item? l ≠ some .directory)
    (elsewhere : d.find t.path ≠ .ok l) : t.Alike d (d.put l (.file bytes)) := by
  have same := Disk.sameDirectories_put apart bytes
  refine alike_of_item? (fun _ => Disk.find_eq_ok_iff same) fun other found => .inl ?_
  refine Disk.item?_put_of_ne ?_ _
  rintro rfl
  exact elsewhere found

end Templates

abbrev Layout := StubUnit → Except TemplateFault Wording

def Definition.bytes? (m : Definition) (layout : Layout) : Option (List UInt8) :=
  m.unit.toOption.bind fun unit => (layout unit).toOption.bind fun text => text.encode.toOption

namespace StubOutput

def Alike (o : StubOutput) (d e : Disk) : Prop := ∀ t, o.templates = some t → t.Alike d e

/-- How stubs are rendered at some point of a run: nothing has been settled yet, or it has been
on a disk like this one. -/
def Amid (o : StubOutput) (d : Disk) (now : StubOutput) : Prop := now = o ∨ now = o.settled d

variable {o now : StubOutput} {d e f : Disk}

@[simp] theorem directory_next (o : StubOutput) (d : Disk) :
    (o.next d).directory = o.directory := by
  unfold next
  split <;> rfl

@[simp] theorem path_next (o : StubOutput) (d : Disk) : (o.next d).path = o.path := by
  funext m
  unfold next
  split <;> rfl

theorem render_of_packaged (packaged : o.templates = none) (d : Disk) (u : StubUnit) :
    o.render d u = .ok u.render := by
  rw [render, packaged]
  rfl

theorem next_of_packaged (packaged : o.templates = none) (d : Disk) : o.next d = o := by
  unfold next
  split
  · rfl
  · rw [settled, packaged, Option.filter_none, ← packaged]

theorem Alike.refl (o : StubOutput) (d : Disk) : o.Alike d d := fun t _ => .refl t d

theorem Alike.trans (first : o.Alike d e) (second : o.Alike e f) : o.Alike d f :=
  fun t own => (first t own).trans (second t own)

theorem Alike.symm (same : o.Alike d e) : o.Alike e d := fun t own => (same t own).symm

theorem Alike.render_eq (same : o.Alike d e) : o.render e = o.render d := by
  funext u
  rw [render, render]
  cases own : o.templates with
  | none => rfl
  | some t =>
    have alike := same t own
    by_cases there : t.isThere d = true
    · have text := alike.text there
      simp [Option.filter, alike.there, there, Templates.render, text]
    · simp [Option.filter, alike.there, there]

theorem Alike.settled_eq (same : o.Alike d e) : o.settled e = o.settled d := by
  rw [settled, settled]
  cases own : o.templates with
  | none => rfl
  | some t => simp [Option.filter, (same t own).there]

theorem render_settled (o : StubOutput) (d : Disk) : (o.settled d).render d = o.render d := by
  funext u
  rw [render, render, settled]
  cases o.templates with
  | none => rfl
  | some t => by_cases there : t.isThere d = true <;> simp [Option.filter, there]

theorem settled_settled (o : StubOutput) (d : Disk) :
    (o.settled d).settled d = o.settled d := by
  rw [settled, settled]
  cases o.templates with
  | none => rfl
  | some t => by_cases there : t.isThere d = true <;> simp [Option.filter, there]

theorem Alike.settled (same : o.Alike d e) : (o.settled d).Alike d e := by
  intro t own
  exact same t (Option.filter_eq_some_iff.mp own).1

theorem Amid.directory (amid : o.Amid d now) : now.directory = o.directory := by
  rcases amid with rfl | rfl <;> rfl

theorem Amid.path (amid : o.Amid d now) (m : Definition) : now.path m = o.path m := by
  rcases amid with rfl | rfl <;> rfl

theorem Amid.render (amid : o.Amid d now) (same : o.Alike d e) : now.render e = o.render d := by
  rcases amid with rfl | rfl
  · exact same.render_eq
  · rw [same.settled.render_eq, render_settled]

theorem Amid.settled (amid : o.Amid d now) (same : o.Alike d e) :
    now.settled e = o.settled d := by
  rcases amid with rfl | rfl
  · exact same.settled_eq
  · rw [same.settled.settled_eq, settled_settled]

theorem Amid.next (amid : o.Amid d now)
    (same : o.Alike d (e.makeDirectories o.directory).2) : o.Amid d (now.next e) := by
  rw [StubOutput.next, amid.directory]
  split
  · exact amid
  · next made =>
    rw [made] at same
    exact .inr (amid.settled same)

end StubOutput

end ModuleStubs
