import ModuleStubs.Proofs.Log.Records
import ModuleStubs.Stub.Output

/-! How the write of one module ends, and what it leaves on the disk. -/

namespace ModuleStubs

namespace StubOutput

def text? (o : StubOutput) (d : Disk) (u : StubUnit) : Option Wording :=
  match d.makeDirectories o.directory with
  | (.error _, _) => none
  | (.ok _, d) => (o.render d u).toOption

/-- How a write ends: the directory is not there and cannot be made, the template fails, the file
cannot be opened, the text is torn and the file is left empty, or the text is stored. -/
inductive Placed (o : StubOutput) (p : Path) (u : StubUnit) (d : Disk) :
    Option Wording → Except WriteFault Unit → Disk → Prop
  | blocked {why : DiskFault} {e : Disk}
    (failed : d.makeDirectories o.directory = (.error why, e)) :
      Placed o p u d none (.error (.disk why)) e
  | unlaid {why : TemplateFault} {e : Disk} (made : d.makeDirectories o.directory = (.ok (), e))
      (failed : o.render e u = .error why) : Placed o p u d none (.error (.template why)) e
  | refused {text : Wording} {why : DiskFault} {e : Disk}
      (made : d.makeDirectories o.directory = (.ok (), e)) (laid : o.render e u = .ok text)
      (failed : e.fileLocation p = .error why) :
      Placed o p u d (some text) (.error (.disk why)) e
  | torn {text : Wording} {why : Torn} {middle : Disk} {l : Location}
      (made : d.makeDirectories o.directory = (.ok (), middle))
    (laid : o.render middle u = .ok text)
      (opened : middle.fileLocation p = .ok l) (torn : text.encode = .error why) :
      Placed o p u d (some text) (.error (.torn why)) (middle.put l (.file []))
  | stored {text : Wording} {bytes : List UInt8} {middle : Disk} {l : Location}
      (made : d.makeDirectories o.directory = (.ok (), middle))
    (laid : o.render middle u = .ok text)
      (opened : middle.fileLocation p = .ok l) (encoded : text.encode = .ok bytes) :
      Placed o p u d (some text) (.ok ()) (middle.put l (.file bytes))

variable {o : StubOutput} {p : Path} {u : StubUnit} {d e : Disk} {text : Option Wording}
  {result : Except WriteFault Unit}

theorem text?_of_not_made {why : DiskFault}
    (failed : d.makeDirectories o.directory = (.error why, e))
    (u : StubUnit) : o.text? d u = none := by
  rw [text?, failed]

theorem text?_of_made {done : Unit} (made : d.makeDirectories o.directory = (.ok done, e))
    (u : StubUnit) : o.text? d u = (o.render e u).toOption := by
  rw [text?, made]

theorem placed_of_place (tried : o.place p u d = (result, e)) :
    ∃ text, o.Placed p u d text result e := by
  rw [place] at tried
  split at tried
  · next failed =>
    cases tried
    exact ⟨_, .blocked failed⟩
  · next middle made =>
    cases laid : o.render middle u with
    | error why =>
      rw [laid] at tried
      cases tried
      exact ⟨_, .unlaid made laid⟩
    | ok text =>
      rw [laid] at tried
      simp only [store, Disk.write] at tried
      cases opened : middle.fileLocation p with
      | error why =>
        rw [opened] at tried
        cases tried
        exact ⟨_, .refused made laid opened⟩
      | ok l =>
        rw [opened] at tried
        cases encoded : text.encode with
        | error why =>
          rw [encoded] at tried
          cases tried
          exact ⟨_, .torn made laid opened encoded⟩
        | ok bytes =>
          rw [encoded] at tried
          cases tried
          exact ⟨_, .stored made laid opened encoded⟩

theorem Placed.place_eq (placed : o.Placed p u d text result e) :
    o.place p u d = (result, e) := by
  cases placed with
  | blocked failed => rw [place, failed]
  | unlaid made failed =>
    rw [place, made]
    simp only [failed]
  | refused made laid failed =>
    rw [place, made]
    simp only [laid, store, Disk.write, failed]
    rfl
  | torn made laid opened torn =>
    rw [place, made]
    simp only [laid, store, Disk.write, opened, torn]
    rfl
  | stored made laid opened encoded =>
    rw [place, made]
    simp only [laid, store, Disk.write, opened, encoded]
    rfl

theorem Placed.text_eq (placed : o.Placed p u d text result e) : text = o.text? d u := by
  cases placed with
  | blocked failed => rw [text?_of_not_made failed]
  | unlaid made failed => rw [text?_of_made made, failed]; rfl
  | refused made laid => rw [text?_of_made made, laid]; rfl
  | torn made laid => rw [text?_of_made made, laid]; rfl
  | stored made laid => rw [text?_of_made made, laid]; rfl

/-- What a write makes of the disk is directories, and one file if it was opened. -/
theorem Placed.ready {c : Option Channel} (placed : o.Placed p u d text result e)
    (ready : Channel.Ready c d) : Channel.Ready c e := by
  have made : ∀ {done : Except DiskFault Unit} {middle : Disk},
      d.makeDirectories o.directory = (done, middle) → Channel.Ready c middle := by
    intro done middle made
    have grown := Disk.grows_makeDirectories (Channel.log c) d o.directory
    rw [made] at grown
    exact ready.mono grown
  have put : ∀ {middle : Disk} {l : Location} {bytes : List UInt8}, Channel.Ready c middle →
      middle.fileLocation p = .ok l → Channel.Ready c (middle.put l (.file bytes)) := by
    intro middle l bytes ready opened
    exact ready.put (Disk.ne_nil_of_item? (Disk.fileLocation_eq_ok opened).2) _
  cases placed with
  | blocked failed => exact made failed
  | unlaid done => exact made done
  | refused done => exact made done
  | torn done laid opened => exact put (made done) opened
  | stored done laid opened => exact put (made done) opened

def writtenRecord (m : Definition) (p : Path) : Record :=
  ⟨stage, .info, s!"Wrote stubs for {m.name} to {p.text}"⟩

def refusedNote (m : Definition) (p : Path) (text : String) : Diagnostic :=
  ⟨.error, s!"Could not write stubs for {m.name}: {text}", some p⟩

theorem isAttached_writtenRecord (m : Definition) (p : Path) :
    (writtenRecord m p).isAttached = true := by
  change Record.isAttached ⟨stage, .info, []⟩ = true
  decide

theorem outcome_write (o : StubOutput) (m : Definition) (unit : StubUnit) (w : World) :
    (o.write m unit).outcome w =
      match o.place (o.path m) unit w.disk with
      | (.ok _, d) =>
        (.ok true, { w with disk := d }.advance
          (w.session.add (.logged (writtenRecord m (o.path m)))))
      | (.error why, d) =>
        match why.settle with
        | .ok text =>
          (.ok false, { w with disk := d }.advance
            (w.session.add (.noted (refusedNote m (o.path m) text))))
        | .error why => (.error why, { w with disk := d }) := by
  rw [write, Run.outcome_bind_of_ok (Run.outcome_disk w)]
  rcases o.place (o.path m) unit w.disk with ⟨why | _, d⟩
  · cases settled : why.settle with
    | error why => simp only [settled]; rfl
    | ok text => simp only [settled]; rfl
  · rfl

end StubOutput

end ModuleStubs
