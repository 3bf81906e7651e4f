import ModuleStubs.Text.Wording

/-! Sets as strictly increasing lists. -/

namespace ModuleStubs.SortedSet

variable {α : Type}

def insert [DecidableEq α] (lt : α → α → Bool) (x : α) : List α → List α
  | [] => [x]
  | y :: ys =>
    if x = y then y :: ys
    else if lt x y then x :: y :: ys
    else y :: insert lt x ys

def ofList [DecidableEq α] (lt : α → α → Bool) (xs : List α) : List α :=
  xs.foldr (insert lt) []

@[simp] theorem mem_insert [DecidableEq α] {lt : α → α → Bool} {a x : α} {xs : List α} :
    a ∈ insert lt x xs ↔ a = x ∨ a ∈ xs := by
  induction xs with
  | nil => simp [insert]
  | cons y ys ih =>
    rw [insert]
    split
    · next h => subst h; simp
    · split <;> simp_all [or_left_comm]

@[simp] theorem mem_ofList [DecidableEq α] {lt : α → α → Bool} {a : α} {xs : List α} :
    a ∈ ofList lt xs ↔ a ∈ xs := by
  induction xs with
  | nil => simp [ofList]
  | cons x xs ih =>
    rw [show ofList lt (x :: xs) = insert lt x (ofList lt xs) from rfl, mem_insert, ih,
      List.mem_cons]

theorem pairwise_insert [DecidableEq α] {lt : α → α → Bool}
    (trans : ∀ a b c, lt a b → lt b c → lt a c) {x : α} {xs : List α}
    (total : ∀ y ∈ xs, x ≠ y → ¬ lt x y → lt y x) (increasing : xs.Pairwise fun a b => lt a b) :
    (insert lt x xs).Pairwise fun a b => lt a b := by
  induction xs with
  | nil => exact List.pairwise_singleton _ x
  | cons y ys ih =>
    obtain ⟨first, rest⟩ := List.pairwise_cons.mp increasing
    rw [List.forall_mem_cons] at total
    rw [insert]
    split
    · exact increasing
    · next ne =>
      split
      · next below =>
        refine List.pairwise_cons.mpr ⟨?_, increasing⟩
        exact List.forall_mem_cons.mpr ⟨below, fun z mem => trans x y z below (first z mem)⟩
      · next above =>
        refine List.pairwise_cons.mpr ⟨fun z mem => ?_, ih total.2 rest⟩
        rcases mem_insert.mp mem with rfl | old
        · exact total.1 ne above
        · exact first z old

theorem pairwise_ofList [DecidableEq α] {lt : α → α → Bool}
    (trans : ∀ a b c, lt a b → lt b c → lt a c) {xs : List α}
    (total : ∀ a ∈ xs, ∀ b ∈ xs, a ≠ b → ¬ lt a b → lt b a) :
    (ofList lt xs).Pairwise fun a b => lt a b := by
  induction xs with
  | nil => exact .nil
  | cons x xs ih =>
    refine pairwise_insert trans (fun y mem => ?_) (ih fun a left b right => ?_)
    · exact total x List.mem_cons_self y (List.mem_cons_of_mem x (mem_ofList.mp mem))
    · exact total a (List.mem_cons_of_mem x left) b (List.mem_cons_of_mem x right)

def ofTexts (xs : List Wording) : List Wording := ofList (fun a b => decide (a < b)) xs

@[simp] theorem mem_ofTexts {a : Wording} {xs : List Wording} : a ∈ ofTexts xs ↔ a ∈ xs :=
  mem_ofList

theorem pairwise_ofTexts (xs : List Wording) : (ofTexts xs).Pairwise (· < ·) := by
  have trans : ∀ a b c : Wording, decide (a < b) → decide (b < c) → decide (a < c) := by
    intro a b c
    simpa only [decide_eq_true_eq] using List.lt_trans
  have total : ∀ a ∈ xs, ∀ b ∈ xs, a ≠ b → ¬ decide (a < b) → decide (b < a) := by
    intro a _ b _ ne above
    rw [decide_eq_true_eq] at above ⊢
    exact Decidable.byContradiction fun below => ne (List.le_antisymm below above)
  exact (pairwise_ofList trans total).imp of_decide_eq_true

end ModuleStubs.SortedSet
