import Mathlib.Data.List.DropRight
import ModuleStubs.Text.Blank

/-! What trimming leaves of a text, told apart from how it is computed: the text has only blanks
around it, and neither begins nor ends with one. -/

namespace ModuleStubs.Text

structure Trimmed (text inner : List Char) : Prop where
  around : ∃ front back, text = front ++ inner ++ back ∧
    (∀ c ∈ front, isBlank c = true) ∧ ∀ c ∈ back, isBlank c = true
  first : ∀ c, inner.head? = some c → isBlank c = false
  last : ∀ c, inner.getLast? = some c → isBlank c = false

theorem trimmed_trimChars (cs : List Char) : Trimmed cs (trimChars cs) := by
  have front : cs.takeWhile isBlank ++ cs.dropWhile isBlank = cs :=
    List.takeWhile_append_dropWhile
  have back : trimChars cs ++ (cs.dropWhile isBlank).rtakeWhile isBlank =
      cs.dropWhile isBlank := List.rdropWhile_append_rtakeWhile
  refine ⟨⟨cs.takeWhile isBlank, (cs.dropWhile isBlank).rtakeWhile isBlank, ?_, ?_, ?_⟩,
    fun c first => ?_, fun c last => ?_⟩
  · rw [List.append_assoc, back, front]
  · exact fun c mem => List.mem_takeWhile_imp mem
  · exact fun c mem => List.mem_rtakeWhile_imp mem
  · -- The trimmed text begins where the blanks in front of it end.
    have begins : (cs.dropWhile isBlank).head? = some c := by
      rw [← back, List.head?_append, first]
      rfl
    have stops := List.head?_dropWhile_not isBlank cs
    rw [begins] at stops
    exact stops
  · obtain ⟨nonempty, ends⟩ := List.mem_getLast?_eq_getLast last
    rw [ends]
    exact Bool.eq_false_iff.mpr (List.rdropWhile_last_not _ _ nonempty)

theorem dropWhile_append_of_first {blanks cs : List Char} (blank : ∀ c ∈ blanks, isBlank c = true)
    (first : ∀ c, cs.head? = some c → isBlank c = false) :
    (blanks ++ cs).dropWhile isBlank = cs := by
  rw [List.dropWhile_append_of_pos blank]
  cases cs with
  | nil => rfl
  | cons c cs => exact List.dropWhile_cons_of_neg (by simp [first c rfl])

theorem Trimmed.eq_trimChars {text inner : List Char} (trimmed : Trimmed text inner) :
    inner = trimChars text := by
  obtain ⟨front, back, rfl, blankFront, blankBack⟩ := trimmed.around
  cases whole : inner with
  | nil =>
    have blank : ∀ c ∈ front ++ [] ++ back, isBlank c = true := by
      simpa using fun c mem => mem.elim (blankFront c) (blankBack c)
    rw [trimChars, List.dropWhile_eq_nil_iff.mpr blank]
    rfl
  | cons c cs =>
    rw [← whole, trimChars, List.append_assoc, dropWhile_append_of_first blankFront,
      List.reverse_append, dropWhile_append_of_first, List.reverse_reverse]
    · simpa using blankBack
    · simpa using trimmed.last
    · intro k begins
      rw [List.head?_append, whole] at begins
      cases begins
      exact trimmed.first c (by simp [whole])

end ModuleStubs.Text
