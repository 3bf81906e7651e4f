import Mathlib.Data.List.TakeWhile
import Mathlib.Tactic.SplitIfs
import ModuleStubs.Log.Logger

/-! Names of loggers. Without the program's name the logger of a stage has the name of the stage.
It leads to the program's logger, whatever other stages have been asked for, unless the stage
begins with a dot: then there are stages that cut it off. -/

namespace ModuleStubs

theorem relativeName_stageName (r : Record) : relativeName (stageName r.stage) = r.shownStage := by
  rw [relativeName, stageName, Record.shownStage]
  split_ifs with unnamed
  · decide
  · have parts : (programName ++ "." ++ r.stage).toList =
        (programName ++ ".").toList ++ r.stage.toList := String.toList_append
    rw [parts, Text.after?_append]
    exact String.ofList_toList

def stagePrefix : List Char := '.' :: programName.toList.reverse

theorem reverse_stageName {stage : String} (named : stage ≠ "") :
    (stageName stage).toList.reverse = stage.toList.reverse ++ stagePrefix := by
  rw [stageName, if_neg named, String.toList_append, String.toList_append, List.reverse_append,
    List.reverse_append]
  rfl

theorem ofList_eq_stageName_iff {stage : String} (named : stage ≠ "") {front : List Char} :
    String.ofList (front ++ stagePrefix).reverse = stageName stage ↔
      front = stage.toList.reverse := by
  rw [← String.toList_inj, String.toList_ofList, List.reverse_eq_iff, reverse_stageName named,
    List.append_left_inj]

theorem length_lt_length_stageName {stage : String} (named : stage ≠ "") :
    stage.toList.reverse.length < (stageName stage).length := by
  rw [stageName, if_neg named, String.length_append, String.length_append, List.length_reverse,
    String.length_toList]
  exact Nat.lt_add_of_pos_left (by decide)

section

variable {known : List String} {fuel : Nat} {last rest xs : List Char}

theorem leadsToProgram_of_dot (clean : '.' ∉ last) :
    leadsToProgram known (fuel + 1) (last ++ '.' :: rest) =
      (rest = programName.toList.reverse ||
        leadsToProgram known fuel
          (if String.ofList rest.reverse ∈ known then rest else rest.drop 1)) := by
  have stop : (last ++ '.' :: rest).dropWhile (· ≠ '.') = '.' :: rest := by
    rw [List.dropWhile_append_of_pos]
    · rfl
    · intro c mem
      simpa using ne_of_mem_of_not_mem mem clean
  rw [leadsToProgram.eq_def, stop]

theorem leadsToProgram_of_notMem (clean : '.' ∉ xs) :
    leadsToProgram known (fuel + 1) (xs ++ stagePrefix) = true := by
  rw [stagePrefix, leadsToProgram_of_dot clean, decide_eq_true rfl, Bool.true_or]

/-- A stage that does not begin with a dot leads to the program, from its right end as from any
of its dots. -/
theorem leadsToProgram_of_getLast?_ne (enough : xs.length < fuel)
    (begins : xs.getLast? ≠ some '.') : leadsToProgram known fuel (xs ++ stagePrefix) = true := by
  induction fuel generalizing xs with
  | zero => exact absurd enough (Nat.not_lt_zero _)
  | succ fuel ih =>
    by_cases dotted : '.' ∈ xs
    · obtain ⟨last, front, rfl, clean⟩ := List.eq_append_cons_of_mem dotted
      rw [List.append_assoc, List.cons_append, leadsToProgram_of_dot clean, Bool.or_eq_true]
      right
      cases front with
      | nil => simp at begins
      | cons c front =>
        have begins' : (c :: front).getLast? ≠ some '.' := by simpa using begins
        rw [List.length_append, List.length_cons, List.length_cons] at enough
        split_ifs
        · exact ih (by rw [List.length_cons]; omega) begins'
        · refine ih (by omega) fun same => begins' ?_
          rw [List.getLast?_cons, same]
          rfl
    · exact leadsToProgram_of_notMem dotted

theorem leadsToProgram_of_getLast? (begins : xs.getLast? = some '.')
    (dots : ∀ front : List Char, front.length < xs.length →
      (String.ofList (front ++ stagePrefix).reverse ∈ known ↔ front = ['.'])) :
    leadsToProgram known fuel (xs ++ stagePrefix) = false := by
  induction fuel generalizing xs with
  | zero => rfl
  | succ fuel ih =>
    obtain ⟨last, front, rfl, clean⟩ :=
      List.eq_append_cons_of_mem (List.mem_of_getLast? begins)
    have shorter : front.length < (last ++ '.' :: front).length := by simp; omega
    have apart : front ++ stagePrefix ≠ programName.toList.reverse := by
      intro same
      have lengths := congrArg List.length same
      rw [stagePrefix, List.length_append, List.length_cons] at lengths
      omega
    rw [List.append_assoc, List.cons_append, leadsToProgram_of_dot clean, decide_eq_false apart,
      Bool.false_or]
    split_ifs with about
    · obtain rfl := (dots front shorter).mp about
      exact ih rfl fun other less => dots other (less.trans shorter)
    · cases front with
      | nil =>
        have none : programName.toList.reverse.dropWhile (· ≠ '.') = [] := by decide
        cases fuel with
        | zero => rfl
        | succ fuel =>
          change leadsToProgram known (fuel + 1) programName.toList.reverse = false
          rw [leadsToProgram.eq_def, none]
      | cons c front =>
        have begins' : (c :: front).getLast? = some '.' := by simpa using begins
        refine ih ?_ fun other less => dots other (by simp at less ⊢; omega)
        cases front with
        | nil => exact absurd ((dots _ shorter).mpr (by simpa using begins')) about
        | cons d front => simpa using begins'

end

theorem isAttachedAmong_of_head? {r : Record} (named : r.stage.toList.head? ≠ some '.')
    (known : List String) : r.isAttachedAmong known = true := by
  rw [Record.isAttachedAmong]
  by_cases unnamed : r.stage = ""
  · rw [decide_eq_true unnamed, Bool.true_or]
  · rw [reverse_stageName unnamed, Bool.or_eq_true]
    right
    refine leadsToProgram_of_getLast?_ne (length_lt_length_stageName unnamed) ?_
    rwa [List.getLast?_reverse]

/-- No record of a stage that begins with a dot is the program's once the stage of one dot has been
asked for. -/
theorem not_isAttachedAmong_of_head? {r : Record} (dotted : r.stage.toList.head? = some '.') :
    r.isAttachedAmong [stageName r.stage, stageName "."] = false := by
  have named : r.stage ≠ "" := by
    intro empty
    rw [empty] at dotted
    cases dotted
  rw [Record.isAttachedAmong, decide_eq_false named, Bool.false_or, reverse_stageName named]
  refine leadsToProgram_of_getLast? (by rwa [List.getLast?_reverse]) fun front shorter => ?_
  have other : front ≠ r.stage.toList.reverse := fun same => absurd shorter (by rw [same]; omega)
  rw [List.mem_cons, List.mem_singleton, ofList_eq_stageName_iff named,
    ofList_eq_stageName_iff (by decide), or_iff_right other]
  exact Iff.rfl

end ModuleStubs
