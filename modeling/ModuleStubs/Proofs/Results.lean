/-! Results that may be faults: when a chain of steps, or the same step for all items of a list,
has a result, and what is in it. -/

namespace ModuleStubs

variable {ε δ α β : Type}

theorem eq_ok_of_toOption {x : Except ε α} {a : α} (h : x.toOption = some a) : x = .ok a := by
  cases x with
  | error why => cases h
  | ok b => exact congrArg Except.ok (Option.some.inj h)

theorem of_bind_eq_ok {x : Except ε α} {f : α → Except ε β} {b : β} (h : (x >>= f) = .ok b) :
    ∃ a, x = .ok a ∧ f a = .ok b := by
  cases x with
  | error why => cases h
  | ok a => exact ⟨a, rfl, h⟩

theorem of_map_eq_ok {x : Except ε α} {f : α → β} {b : β} (h : x.map f = .ok b) :
    ∃ a, x = .ok a ∧ f a = b := by
  cases x with
  | error why => cases h
  | ok a => exact ⟨a, rfl, Except.ok.inj h⟩

theorem mapError_eq_ok_iff {x : Except ε α} {f : ε → δ} {a : α} :
    x.mapError f = .ok a ↔ x = .ok a := by
  cases x with
  | error why => exact ⟨nofun, nofun⟩
  | ok b =>
    constructor
    · rintro ⟨⟩
      rfl
    · rintro ⟨⟩
      rfl

theorem exists_ok_iff (a : α) : (∃ b, (.ok a : Except ε α) = .ok b) ↔ True :=
  ⟨fun _ => trivial, fun _ => ⟨a, rfl⟩⟩

theorem exists_bind_eq_ok_iff {x : Except ε α} {f : α → Except ε β} {P : Prop}
    (rest : ∀ a, (∃ b, f a = .ok b) ↔ P) :
    (∃ b, (x >>= f) = .ok b) ↔ (∃ a, x = .ok a) ∧ P := by
  cases x with
  | error why => simp [bind, Except.bind]
  | ok a =>
    change (∃ b, f a = .ok b) ↔ _
    rw [rest a]
    simp

theorem exists_mapM_eq_ok_iff {f : α → Except ε β} {xs : List α} :
    (∃ ys, xs.mapM f = .ok ys) ↔ ∀ x ∈ xs, ∃ y, f x = .ok y := by
  induction xs with
  | nil => simp [pure, Except.pure]
  | cons x xs ih =>
    rw [List.mapM_cons, List.forall_mem_cons, ← ih]
    refine exists_bind_eq_ok_iff fun y => ?_
    have rest : (∃ zs, (xs.mapM f >>= fun ys => pure (y :: ys)) = .ok zs) ↔
        (∃ ys, xs.mapM f = .ok ys) ∧ True :=
      exists_bind_eq_ok_iff fun ys => ⟨fun _ => trivial, fun _ => ⟨_, rfl⟩⟩
    rw [rest, and_true]

theorem mem_mapM_iff {f : α → Except ε β} {xs : List α} {ys : List β} (done : xs.mapM f = .ok ys)
    {y : β} : y ∈ ys ↔ ∃ x ∈ xs, f x = .ok y := by
  induction xs generalizing ys with
  | nil =>
    cases done
    simp
  | cons x xs ih =>
    rw [List.mapM_cons] at done
    obtain ⟨z, first, done⟩ := of_bind_eq_ok done
    obtain ⟨zs, rest, done⟩ := of_bind_eq_ok done
    cases done
    simp [first, ih rest, eq_comm]

/-- What is in one of the lists for the items, if it can be told from the item. -/
theorem mem_flatten_mapM_iff {f : α → Except ε (List β)} {xs : List α} {lists : List (List β)}
    (done : xs.mapM f = .ok lists) {y : β} {P : α → Prop}
    (each : ∀ x ∈ xs, ∀ ys, f x = .ok ys → (y ∈ ys ↔ P x)) :
    y ∈ lists.flatten ↔ ∃ x ∈ xs, P x := by
  rw [List.mem_flatten]
  constructor
  · rintro ⟨ys, listed, mem⟩
    obtain ⟨x, mem', given⟩ := (mem_mapM_iff done).mp listed
    exact ⟨x, mem', (each x mem' ys given).mp mem⟩
  · rintro ⟨x, mem, holds⟩
    obtain ⟨ys, given⟩ := exists_mapM_eq_ok_iff.mp ⟨lists, done⟩ x mem
    exact ⟨ys, (mem_mapM_iff done).mpr ⟨x, mem, given⟩, (each x mem ys given).mpr holds⟩

/-- There are lists of what has some property, if there is such a list for each item. -/
theorem exists_flatten_mapM {f : α → Except ε (List β)} {P : β → Prop} {xs : List α}
    (each : ∀ x ∈ xs, ∃ ys, f x = .ok ys ∧ ∀ y ∈ ys, P y) :
    ∃ ys, (xs.mapM f >>= fun lists => .ok lists.flatten) = .ok ys ∧ ∀ y ∈ ys, P y := by
  obtain ⟨lists, done⟩ := exists_mapM_eq_ok_iff.mpr fun x mem => (each x mem).imp fun _ h => h.1
  refine ⟨lists.flatten, by rw [done]; rfl, fun y mem => ?_⟩
  obtain ⟨ys, listed, inside⟩ := List.mem_flatten.mp mem
  obtain ⟨x, mem', given⟩ := (mem_mapM_iff done).mp listed
  obtain ⟨zs, given', all⟩ := each x mem'
  cases given.symm.trans given'
  exact all y inside

def FailsOnly (P : ε → Prop) (x : Except ε α) : Prop := ∀ why, x = .error why → P why

namespace FailsOnly

variable {P : ε → Prop}

theorem ok (a : α) : FailsOnly P (.ok a) := nofun

theorem bind {x : Except ε α} {f : α → Except ε β} (first : FailsOnly P x)
    (rest : ∀ a, x = .ok a → FailsOnly P (f a)) : FailsOnly P (x >>= f) := by
  cases x with
  | error why =>
    rintro _ ⟨⟩
    exact first why rfl
  | ok a => exact rest a rfl

theorem mapError {Q : δ → Prop} {x : Except ε α} {f : ε → δ} (given : FailsOnly P x)
    (turned : ∀ why, P why → Q (f why)) : FailsOnly Q (x.mapError f) := by
  cases x with
  | error why =>
    rintro _ ⟨⟩
    exact turned why (given why rfl)
  | ok a => exact nofun

theorem mapM {f : α → Except ε β} {xs : List α} (each : ∀ x ∈ xs, FailsOnly P (f x)) :
    FailsOnly P (xs.mapM f) := by
  induction xs with
  | nil => exact nofun
  | cons x xs ih =>
    obtain ⟨first, rest⟩ := List.forall_mem_cons.mp each
    rw [List.mapM_cons]
    exact .bind first fun y _ => .bind (ih rest) fun ys _ => nofun

theorem filterAuxM {f : α → Except ε Bool} {xs : List α} (each : ∀ x ∈ xs, FailsOnly P (f x))
    (held : List α) : FailsOnly P (xs.filterAuxM f held) := by
  induction xs generalizing held with
  | nil => exact nofun
  | cons x xs ih =>
    obtain ⟨first, rest⟩ := List.forall_mem_cons.mp each
    rw [List.filterAuxM]
    exact .bind first fun taken _ => ih rest _

theorem filterM {f : α → Except ε Bool} {xs : List α} (each : ∀ x ∈ xs, FailsOnly P (f x)) :
    FailsOnly P (xs.filterM f) :=
  .bind (filterAuxM each []) fun _ _ => nofun

end FailsOnly

section

variable {f : α → Except ε Bool} {xs ys : List α}

theorem mem_filterAuxM_iff {held : List α} (done : xs.filterAuxM f held = .ok ys) {y : α} :
    y ∈ ys ↔ y ∈ held ∨ y ∈ xs ∧ f y = .ok true := by
  induction xs generalizing held with
  | nil =>
    cases done
    simp
  | cons x xs ih =>
    rw [List.filterAuxM] at done
    obtain ⟨taken, first, done⟩ := of_bind_eq_ok done
    rw [ih done, List.mem_cons]
    cases taken with
    | false =>
      have other : ∀ z, z = x → f z ≠ .ok true := by
        rintro _ rfl same
        cases first.symm.trans same
      grind
    | true =>
      change y ∈ x :: held ∨ _ ↔ _
      rw [List.mem_cons]
      grind

theorem mem_filterM_iff (done : xs.filterM f = .ok ys) {y : α} :
    y ∈ ys ↔ y ∈ xs ∧ f y = .ok true := by
  obtain ⟨zs, all, done⟩ := of_bind_eq_ok done
  cases done
  rw [List.mem_reverse, mem_filterAuxM_iff all]
  simp

theorem exists_filterAuxM_eq_ok_iff (held : List α) :
    (∃ ys, xs.filterAuxM f held = .ok ys) ↔ ∀ x ∈ xs, ∃ taken, f x = .ok taken := by
  induction xs generalizing held with
  | nil => simp [List.filterAuxM, pure, Except.pure]
  | cons x xs ih =>
    rw [List.filterAuxM, List.forall_mem_cons]
    exact exists_bind_eq_ok_iff fun taken => ih _

theorem exists_filterM_eq_ok_iff :
    (∃ ys, xs.filterM f = .ok ys) ↔ ∀ x ∈ xs, ∃ taken, f x = .ok taken := by
  rw [← exists_filterAuxM_eq_ok_iff [], ← and_true (∃ ys, xs.filterAuxM f [] = .ok ys)]
  exact exists_bind_eq_ok_iff fun ys => exists_ok_iff ys.reverse

end

end ModuleStubs
