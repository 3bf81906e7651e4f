import ModuleStubs.Proofs.Log.Records
import ModuleStubs.Proofs.Tool.Account

/-! Accounts of runs. What a run tells is what its work on the session tells; the disk
stays as it is in all but the log file, whatever is written there. -/

namespace ModuleStubs

/-- Disks that are the same, but for one place if there is one. -/
structure Disk.SameBut (log : Option Location) (d e : Disk) : Prop where
  here : e.here = d.here
  item : ∀ l, log ≠ some l → e.item? l = d.item? l

namespace Disk

variable {log : Option Location} {d e f : Disk}

theorem SameBut.refl (log : Option Location) (d : Disk) : SameBut log d d := ⟨rfl, fun _ _ => rfl⟩

theorem SameBut.trans (first : SameBut log d e) (second : SameBut log e f) : SameBut log d f :=
  ⟨second.here.trans first.here, fun l off => (second.item l off).trans (first.item l off)⟩

theorem Relogged.sameBut (same : Relogged log d e) : SameBut log d e := ⟨same.here, same.item⟩

theorem sameBut_extend (d : Disk) (l : Location) (bytes : List UInt8) :
    SameBut (some l) d (d.extend l bytes) := by
  refine ⟨rfl, fun other off => ?_⟩
  have ne : other ≠ l := fun same => off (congrArg some same.symm)
  rw [extend, item?_put_of_ne ne]

end Disk

namespace Channel

theorem sameBut_keep (c : Option Channel) (time : String) (r : Record) (d : Disk) :
    Disk.SameBut (log c) d (keep c time r d) := by
  cases lead : log c with
  | none =>
    rw [keep_of_no_log lead]
    exact .refl none d
  | some l =>
    cases c with
    | none => cases lead
    | some c =>
      have target : c.file = some l := lead
      simp only [keep, target]
      split
      · unfold append
        split
        · exact Disk.sameBut_extend d l _
        · exact .refl _ d
      · exact .refl _ d

theorem sameBut_keepAll (c : Option Channel) (time : String) (rs : List Record) (d : Disk) :
    Disk.SameBut (log c) d (rs.foldl (fun d r => keep c time r d) d) := by
  induction rs generalizing d with
  | nil => exact .refl _ d
  | cons r rs ih => exact (sameBut_keep c time r d).trans (ih _)

end Channel

structure World.Follows (w v : World) (tale : Tale) : Prop where
  session : w.session.Follows v.session tale
  channel : v.channel = w.channel
  disk : Disk.SameBut (Channel.log w.channel) w.disk v.disk

namespace World

theorem Follows.refl (w : World) : w.Follows w {} := ⟨.refl w.session, rfl, .refl _ w.disk⟩

theorem Follows.trans {w v u : World} {first second : Tale} (h : w.Follows v first)
    (k : v.Follows u second) : w.Follows u (first ++ second) := by
  have disk := k.disk
  rw [h.channel] at disk
  exact ⟨h.session.trans k.session, k.channel.trans h.channel, h.disk.trans disk⟩

theorem follows_advance {w : World} {s : Session} {tale : Tale} (h : w.session.Follows s tale) :
    w.Follows (w.advance s) tale :=
  ⟨h, rfl, Channel.sameBut_keepAll w.channel w.time _ w.disk⟩

end World

namespace Run

variable {α β : Type} {box : Toolbox} {w : World}

/-- An account of a run from a world on: what it tells, and with that how it ends. -/
def Accounted (box : Toolbox) (r : Run α) (w : World) (post : α → Tale → Prop) : Prop :=
  ∃ tale, w.Follows (r.outcome w).2 tale ∧ box.Ended w.session.calls post (r.outcome w).1 tale

theorem accounted_pure {x : α} {post : α → Tale → Prop} (h : post x {}) :
    Accounted box (pure x) w post :=
  ⟨{}, .refl w, trivial, h⟩

theorem accounted_act {a : Action α} {post : α → Tale → Prop}
    (h : box.Accounts a w.session post) : Accounted box (act a) w post := by
  obtain ⟨tale, follows, ends⟩ := h
  rw [Accounted, outcome_act]
  exact ⟨tale, World.follows_advance follows, ends⟩

theorem accounted_bind {r : Run α} {f : α → Run β} {mid : α → Tale → Prop}
    {post : β → Tale → Prop} (first : Accounted box r w mid)
    (rest : ∀ x told v, w.Follows v told → mid x told →
      Accounted box (f x) v fun y later => post y (told ++ later)) :
    Accounted box (r >>= f) w post := by
  obtain ⟨told, follows, ends⟩ := first
  rw [Accounted, outcome_bind]
  cases reached : r.outcome w with
  | mk result v =>
    rw [reached] at follows ends
    cases result with
    | error why => exact ⟨told, follows, ends⟩
    | ok x =>
      obtain ⟨later, follows', ends'⟩ := rest x told v follows ends.2
      rw [follows.session.calls] at ends'
      exact ⟨told ++ later, follows.trans follows', Toolbox.Ended.after ends.1 ends'⟩

theorem accounted_bind_pure {r : Run α} {f : α → β} {mid : α → Tale → Prop}
    {post : β → Tale → Prop} (first : Accounted box r w mid)
    (rest : ∀ x told, mid x told → post (f x) told) :
    Accounted box (r >>= fun x => pure (f x)) w post := by
  refine accounted_bind first fun x told v _ h => accounted_pure ?_
  rw [Tale.append_empty]
  exact rest x told h

theorem Accounted.mono {r : Run α} {post weaker : α → Tale → Prop}
    (h : Accounted box r w post) (weaken : ∀ x tale, post x tale → weaker x tale) :
    Accounted box r w weaker := by
  obtain ⟨tale, follows, ends⟩ := h
  exact ⟨tale, follows, ends.mono weaken⟩

end Run

end ModuleStubs
