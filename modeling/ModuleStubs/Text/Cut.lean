/-! Cutting text at a fixed word. -/

namespace ModuleStubs.Text

variable {α : Type} [DecidableEq α]

def after? : (word : List α) → List α → Option (List α)
  | [], cs => some cs
  | w :: ws, c :: cs => if w = c then after? ws cs else none
  | _ :: _, [] => none

def cutAt? (word : List α) : List α → Option (List α × List α)
  | [] => (after? word []).map fun rest => ([], rest)
  | c :: cs =>
    match after? word (c :: cs) with
    | some rest => some ([], rest)
    | none => (cutAt? word cs).map fun cut => (c :: cut.1, cut.2)

def holds (word cs : List α) : Bool := (cutAt? word cs).isSome

@[simp] theorem after?_append (word rest : List α) : after? word (word ++ rest) = some rest := by
  induction word with
  | nil => rfl
  | cons w ws ih => simp [after?, ih]

theorem cutAt?_append {c : α} {front : List α} (clean : c ∉ front) (word rest : List α) :
    cutAt? (c :: word) (front ++ (c :: word ++ rest)) = some (front, rest) := by
  induction front with
  | nil =>
    have found : after? (c :: word) (c :: (word ++ rest)) = some rest :=
      after?_append (c :: word) rest
    rw [List.nil_append, List.cons_append, cutAt?, found]
  | cons d front ih =>
    have other : c ≠ d := List.ne_of_not_mem_cons clean
    have later := ih (List.not_mem_of_not_mem_cons clean)
    rw [List.cons_append, cutAt?, after?, if_neg other, later]
    rfl

theorem eq_append_of_after? {word cs rest : List α} (h : after? word cs = some rest) :
    cs = word ++ rest := by
  induction word generalizing cs with
  | nil => simpa [after?] using h
  | cons w ws ih =>
    cases cs with
    | nil => simp [after?] at h
    | cons c cs =>
      rw [after?] at h
      split at h
      · next hw => rw [hw, ih h, List.cons_append]
      · cases h

end ModuleStubs.Text
