import Mathlib.Tactic.SplitIfs
import ModuleStubs.Text.Split

/-! What splitting finds: the pieces that were put between the separators, if none of
them holds one. -/

namespace ModuleStubs.Text

variable {α : Type}

theorem joinWith_eq_intercalate (sep : List α) (pieces : List (List α)) :
    joinWith sep pieces = sep.intercalate pieces := by
  induction pieces with
  | nil => rfl
  | cons first pieces ih =>
    cases pieces with
    | nil => simp [joinWith]
    | cons second pieces =>
      rw [joinWith, ih, List.intercalate_cons_cons, List.append_assoc]
      exact List.cons_ne_nil _ _

theorem notMem_joinWith {c : α} {sep : List α} {pieces : List (List α)} (apart : c ∉ sep)
    (clean : ∀ piece ∈ pieces, c ∉ piece) : c ∉ joinWith sep pieces := by
  induction pieces with
  | nil => exact List.not_mem_nil
  | cons first pieces ih =>
    obtain ⟨head, rest⟩ := List.forall_mem_cons.mp clean
    cases pieces with
    | nil => exact head
    | cons second pieces =>
      simp only [joinWith, List.mem_append, head, apart, ih rest, or_self, not_false_eq_true]

theorem append_intercalate (front sep first : List α) (pieces : List (List α)) :
    front ++ sep.intercalate (first :: pieces) = sep.intercalate ((front ++ first) :: pieces) := by
  cases pieces <;> simp [List.intercalate_cons_cons]

variable [DecidableEq α]

theorem splitOn_of_notMem {sep : α} {piece : List α} (clean : sep ∉ piece) :
    splitOn sep piece = [piece] := by
  induction piece with
  | nil => rfl
  | cons c piece ih =>
    have other : c ≠ sep := Ne.symm (List.ne_of_not_mem_cons clean)
    rw [splitOn, if_neg other, ih (List.not_mem_of_not_mem_cons clean)]

theorem splitOn_append {sep : α} {piece : List α} (clean : sep ∉ piece) (rest : List α) :
    splitOn sep (piece ++ sep :: rest) = piece :: splitOn sep rest := by
  induction piece with
  | nil => rw [List.nil_append, splitOn, if_pos rfl]
  | cons c piece ih =>
    have other : c ≠ sep := Ne.symm (List.ne_of_not_mem_cons clean)
    rw [List.cons_append, splitOn, if_neg other, ih (List.not_mem_of_not_mem_cons clean)]

theorem notMem_of_mem_splitOn {sep : α} {cs piece : List α} (mem : piece ∈ splitOn sep cs) :
    sep ∉ piece := by
  induction cs generalizing piece with
  | nil => rw [List.mem_singleton.mp mem]; exact List.not_mem_nil
  | cons c cs ih =>
    rw [splitOn] at mem
    split_ifs at mem with here
    · rcases List.mem_cons.mp mem with rfl | later
      · exact List.not_mem_nil
      · exact ih later
    · split at mem
      · next none => exact absurd none (splitOn_ne_nil sep cs)
      · next first pieces found =>
        rcases List.mem_cons.mp mem with rfl | later
        · have clean := ih (found ▸ List.mem_cons_self)
          exact List.not_mem_cons_of_ne_of_not_mem (Ne.symm here) clean
        · exact ih (found ▸ List.mem_cons_of_mem first later)

theorem mem_of_mem_splitOn {sep c : α} {cs piece : List α} (mem : piece ∈ splitOn sep cs)
    (held : c ∈ piece) : c ∈ cs := by
  induction cs generalizing piece with
  | nil =>
    rw [List.mem_singleton.mp mem] at held
    exact held
  | cons d cs ih =>
    rw [splitOn] at mem
    split_ifs at mem
    · rcases List.mem_cons.mp mem with rfl | later
      · exact absurd held List.not_mem_nil
      · exact List.mem_cons_of_mem d (ih later held)
    · split at mem
      · next none => exact absurd none (splitOn_ne_nil sep cs)
      · next first pieces found =>
        rw [found] at ih
        rcases List.mem_cons.mp mem with rfl | later
        · rcases List.mem_cons.mp held with rfl | inside
          · exact List.mem_cons_self
          · exact List.mem_cons_of_mem d (ih List.mem_cons_self inside)
        · exact List.mem_cons_of_mem d (ih (List.mem_cons_of_mem first later) held)

theorem pieces_of_notMem {sep : Char} {s : String} (clean : sep ∉ s.toList) :
    pieces sep s = [s] := by
  rw [pieces, splitOn_of_notMem clean, List.map_singleton, String.ofList_toList]

theorem pieces_append {sep : Char} {s : String} (clean : sep ∉ s.toList) (rest : String) :
    pieces sep (s ++ String.singleton sep ++ rest) = s :: pieces sep rest := by
  have chars : (s ++ String.singleton sep ++ rest).toList = s.toList ++ sep :: rest.toList := by
    simp
  rw [pieces, chars, splitOn_append clean, List.map_cons, String.ofList_toList]
  rfl

theorem splitOn_lines {sep : α} {lines : List (List α)} (clean : ∀ line ∈ lines, sep ∉ line) :
    splitOn sep (lines.flatMap (· ++ [sep])) = lines ++ [[]] := by
  induction lines with
  | nil => rfl
  | cons line lines ih =>
    obtain ⟨first, rest⟩ := List.forall_mem_cons.mp clean
    rw [List.flatMap_cons, List.append_assoc, List.singleton_append, splitOn_append first, ih rest,
      List.cons_append]

/-- The rest of a separator that begins with the mark is left before the next piece. -/
theorem splitOn_intercalate {c : α} {rest : List α} (apart : c ∉ rest)
    {first : List α} {pieces : List (List α)} (clean : ∀ piece ∈ first :: pieces, c ∉ piece) :
    splitOn c ((c :: rest).intercalate (first :: pieces)) = first :: pieces.map (rest ++ ·) := by
  induction pieces generalizing first with
  | nil =>
    rw [List.intercalate_singleton, splitOn_of_notMem (clean first List.mem_cons_self)]
    rfl
  | cons second pieces ih =>
    obtain ⟨head, others⟩ := List.forall_mem_cons.mp clean
    obtain ⟨next, later⟩ := List.forall_mem_cons.mp others
    have joined : (c :: rest).intercalate (first :: second :: pieces) =
        first ++ c :: (c :: rest).intercalate ((rest ++ second) :: pieces) := by
      rw [List.intercalate_cons_cons, ← append_intercalate]
      simp
    have clean' : ∀ piece ∈ (rest ++ second) :: pieces, c ∉ piece :=
      List.forall_mem_cons.mpr ⟨by simp [apart, next], later⟩
    rw [joined, splitOn_append head, ih clean', List.map_cons]

end ModuleStubs.Text
