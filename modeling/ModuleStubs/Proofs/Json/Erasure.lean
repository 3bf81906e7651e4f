import Mathlib.Tactic.SplitIfs
import ModuleStubs.Json.Value

/-! Keys taken out of objects. Values get smaller when a key is taken out of them or holds a
smaller value. -/

namespace ModuleStubs

namespace Json

def erase (key : Wording) (fields : List (Wording × Json)) : List (Wording × Json) :=
  fields.filter fun field => field.1 ≠ key

section

variable {key other : Wording} {fields : List (Wording × Json)} {value value' : Json}

theorem lookup_erase_self (key : Wording) (fields : List (Wording × Json)) :
    lookup key (erase key fields) = none := by
  rw [lookup, erase, List.find?_filter, Option.map_eq_none_iff, List.find?_eq_none]
  simp

theorem lookup_erase_of_ne (ne : other ≠ key) (fields : List (Wording × Json)) :
    lookup other (erase key fields) = lookup other fields := by
  rw [lookup, erase, List.find?_filter, lookup]
  congr 2
  funext field
  by_cases here : field.1 = other <;> simp [here, ne]

theorem lookup_cons (key : Wording) (field : Wording × Json) (fields : List (Wording × Json)) :
    lookup key (field :: fields) = if field.1 = key then some field.2 else lookup key fields := by
  by_cases here : field.1 = key <;> simp [lookup, here]

theorem sizeOf_erase_le (key : Wording) (fields : List (Wording × Json)) :
    sizeOf (erase key fields) ≤ sizeOf fields := by
  induction fields with
  | nil => exact Nat.le_refl _
  | cons field fields ih =>
    rw [erase] at ih
    rw [erase, List.filter_cons]
    split_ifs <;> simp only [List.cons.sizeOf_spec] <;> omega

theorem sizeOf_erase_lt (held : lookup key fields = some value) :
    sizeOf (erase key fields) < sizeOf fields := by
  induction fields with
  | nil => cases held
  | cons field fields ih =>
    have rest := sizeOf_erase_le key fields
    rw [lookup_cons] at held
    rw [erase] at ih rest
    rw [erase, List.filter_cons]
    split_ifs at held with here
    · rw [if_neg (by simp [here]), List.cons.sizeOf_spec]
      omega
    · rw [if_pos (by simp [here]), List.cons.sizeOf_spec, List.cons.sizeOf_spec]
      have := ih held
      omega

theorem sizeOf_put_lt (held : lookup key fields = some value)
    (smaller : sizeOf value' < sizeOf value) : sizeOf (put key value' fields) < sizeOf fields := by
  induction fields with
  | nil => cases held
  | cons field fields ih =>
    obtain ⟨first, old⟩ := field
    rw [lookup_cons] at held
    rw [put]
    split_ifs at held ⊢ with here
    · obtain rfl : old = value := Option.some.inj held
      cases here
      simp only [List.cons.sizeOf_spec, Prod.mk.sizeOf_spec]
      omega
    · rw [List.cons.sizeOf_spec, List.cons.sizeOf_spec]
      have := ih held
      omega

theorem sizeOf_append (front back : List Json) :
    sizeOf (front ++ back) + 1 = sizeOf front + sizeOf back := by
  induction front with
  | nil => simp [Nat.add_comm]
  | cons item front ih =>
    rw [List.cons_append, List.cons.sizeOf_spec, List.cons.sizeOf_spec]
    omega

end

end Json

end ModuleStubs
