import ModuleStubs.Proofs.Disk.Alike
import ModuleStubs.Proofs.Text.Whole
import ModuleStubs.Run.World

/-! Records on the disk. Whatever work is done on the session, the disk only grows by
the lines of the log file. -/

namespace ModuleStubs

namespace Channel

variable {c : Option Channel}

def log (c : Option Channel) : Option Location := c.bind Channel.file

def Ready (c : Option Channel) (d : Disk) : Prop :=
  ∀ l, log c = some l → ∃ bytes, d.item? l = some (.file bytes)

theorem Ready.mono {d e : Disk} (ready : Ready c d) (grows : Disk.Grows (log c) d e) :
    Ready c e := by
  intro l lead
  obtain ⟨bytes, there⟩ := ready l lead
  obtain ⟨more, still, -⟩ := grows.file l bytes there
  exact ⟨bytes ++ more, still⟩

theorem grows_append {d : Disk} {l : Location} {held : List UInt8}
    (there : d.item? l = some (.file held)) (line : Wording) :
    Disk.Grows (some l) d (append line l d) := by
  unfold append
  split
  · exact Disk.grows_extend there _
  · exact Disk.Grows.refl _ d

theorem relogged_append {d : Disk} {l : Location} {held : List UInt8}
    (there : d.item? l = some (.file held)) (line : Wording) :
    Disk.Relogged (some l) d (append line l d) := by
  unfold append
  split
  · exact Disk.relogged_extend there _
  · exact .refl _ d

theorem grows_keep {d : Disk} (ready : Ready c d) (time : String) (r : Record) :
    Disk.Grows (log c) d (keep c time r d) := by
  unfold keep
  split
  · exact Disk.Grows.refl _ d
  · next c =>
    split
    · exact Disk.Grows.refl _ d
    · next l target =>
      have lead : log (some c) = some l := target
      split_ifs
      · obtain ⟨bytes, there⟩ := ready l lead
        rw [lead]
        exact grows_append there _
      · exact Disk.Grows.refl _ d

theorem keep_of_no_log (quiet : log c = none) (time : String) (r : Record) (d : Disk) :
    keep c time r d = d := by
  unfold keep
  split
  · rfl
  · next c =>
    have target : c.file = none := quiet
    rw [target]

theorem grows_keepAll {d : Disk} (ready : Ready c d) (time : String) (rs : List Record) :
    Disk.Grows (log c) d (rs.foldl (fun d r => keep c time r d) d) := by
  induction rs generalizing d with
  | nil => exact Disk.Grows.refl _ d
  | cons r rs ih =>
    have first := grows_keep ready time r
    exact first.trans (ih (ready.mono first))

theorem Ready.relogged {d e : Disk} (ready : Ready c d) (same : Disk.Relogged (log c) d e) :
    Ready c e := by
  intro l lead
  obtain ⟨bytes, there⟩ := ready l lead
  rcases same.cases l with ⟨first, -⟩ | ⟨first, -⟩ | ⟨-, others, -, second⟩
  · exact nomatch there.symm.trans first
  · exact nomatch there.symm.trans first
  · exact ⟨others, second⟩

theorem Ready.put {d : Disk} {l : Location} (ready : Ready c d) (inner : l ≠ [])
    (bytes : List UInt8) : Ready c (d.put l (.file bytes)) := by
  intro other lead
  by_cases same : other = l
  · exact ⟨bytes, by rw [same, Disk.item?_put_self inner]⟩
  · rw [Disk.item?_put_of_ne same]
    exact ready other lead

theorem relogged_keep {d : Disk} (ready : Ready c d) (time : String) (r : Record) :
    Disk.Relogged (log c) d (keep c time r d) := by
  unfold keep
  split
  · exact .refl _ d
  · next c =>
    split
    · exact .refl _ d
    · next l target =>
      have lead : log (some c) = some l := target
      split_ifs
      · obtain ⟨bytes, there⟩ := ready l lead
        rw [lead]
        exact relogged_append there _
      · exact .refl _ d

theorem relogged_keepAll {d : Disk} (ready : Ready c d) (time : String) (rs : List Record) :
    Disk.Relogged (log c) d (rs.foldl (fun d r => keep c time r d) d) := by
  induction rs generalizing d with
  | nil => exact .refl _ d
  | cons r rs ih =>
    have first := relogged_keep ready time r
    exact first.trans (ih (ready.relogged first))

theorem whole_fileLine_iff {time : String} {r : Record} :
    (fileLine time r).Whole ↔ r.message.Whole := by
  simp [fileLine, Wording.whole_append_iff]

def fileLineBytes (time : String) (r : Record) : List UInt8 :=
  Text.Utf8.encode (fileLine time r).shown.toList

theorem append_fileLine {r : Record} (whole : r.message.Whole) (time : String) (l : Location)
    (d : Disk) : append (fileLine time r) l d = d.extend l (fileLineBytes time r) := by
  obtain ⟨text, line⟩ := (@whole_fileLine_iff time r).mpr whole
  rw [append, fileLineBytes, line, Wording.encode_ofString, Wording.shown_ofString]

theorem append_of_torn {line : Wording} (torn : ¬ line.Whole) (l : Location) (d : Disk) :
    append line l d = d := by
  cases encoded : line.encode with
  | error why => rw [append, encoded]
  | ok bytes =>
    obtain ⟨text, whole, -⟩ := Wording.encode_eq_ok_iff.mp encoded
    exact absurd ⟨text, whole⟩ torn

theorem fileLineBytes_ne_nil (time : String) (r : Record) : fileLineBytes time r ≠ [] := by
  intro empty
  have blank := Text.Utf8.encode_injective (empty.trans Text.Utf8.encode_nil.symm)
  rw [String.toList_eq_nil_iff] at blank
  simp [fileLine, Wording.shown, Wording.ofString, CodePoint.shown] at blank

/-- A line that passes and is not torn makes its log file longer. -/
theorem item?_keep {d : Disk} {l : Location} {bytes : List UInt8} (lead : log c = some l)
    (there : d.item? l = some (.file bytes)) (time : String) {r : Record}
    (attached : r.isAttached = true) (loud : Level.info.rank ≤ r.level.rank)
    (whole : r.message.Whole) :
    ∃ more, (keep c time r d).item? l = some (.file (bytes ++ more)) ∧ more ≠ [] := by
  cases c with
  | none => cases lead
  | some c =>
    have target : c.file = some l := lead
    have passes : c.passes r = true := by
      have level : c.level.rank ≤ Level.info.rank := by
        unfold Channel.level
        split <;> decide
      simp only [Channel.passes, decide_eq_true_eq]
      omega
    simp only [keep, target, attached, passes, Bool.and_self, if_true]
    rw [append_fileLine whole]
    exact ⟨_, Disk.item?_extend there _, fileLineBytes_ne_nil time r⟩

theorem ready_configure {d e : Disk} {verbose : Bool} {logFile : Option Path} {c : Channel}
    (done : configure verbose logFile d = (.ok (), c, e)) : Ready (some c) e := by
  unfold configure at done
  split at done
  · cases done
    exact nofun
  · next p =>
    split at done
    · cases done
    · next l opened =>
      cases done
      unfold openFile at opened
      split at opened
      · cases opened
      · split at opened
        · cases opened
        · next located =>
          cases opened
          obtain ⟨-, apart⟩ := Disk.fileLocation_eq_ok located
          rintro other lead
          cases lead
          exact ⟨_, Disk.item?_put_self (Disk.ne_nil_of_item? apart) _⟩

end Channel

namespace World

theorem advance_of_no_log {w : World} (quiet : Channel.log w.channel = none) (s : Session) :
    w.advance s = { w with session := s } := by
  have same : ∀ rs : List Record,
      rs.foldl (fun d r => Channel.keep w.channel w.time r d) w.disk = w.disk := by
    intro rs
    induction rs with
    | nil => rfl
    | cons r rs ih => rw [List.foldl_cons, Channel.keep_of_no_log quiet, ih]
  rw [advance, same]

theorem disk_advance_logged (w : World) (r : Record) :
    (w.advance (w.session.add (.logged r))).disk = Channel.keep w.channel w.time r w.disk := by
  have fresh : (w.session.add (.logged r)).records.drop w.session.records.length = [r] := by
    simp [Session.records, Session.add, Event.record?]
  rw [advance, fresh]
  rfl

theorem relogged_advance {w : World} (ready : Channel.Ready w.channel w.disk) (s : Session) :
    Disk.Relogged (Channel.log w.channel) w.disk (w.advance s).disk :=
  Channel.relogged_keepAll ready w.time _

theorem grows_advance {w : World} (ready : Channel.Ready w.channel w.disk) (s : Session) :
    Disk.Grows (Channel.log w.channel) w.disk (w.advance s).disk :=
  Channel.grows_keepAll ready w.time _

end World

end ModuleStubs
