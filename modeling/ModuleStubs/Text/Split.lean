/-! Splitting text at a separator and joining it again. -/

namespace ModuleStubs.Text

variable {α : Type}

/-- The pieces between the separators; there is always one more than separators. -/
def splitOn [DecidableEq α] (sep : α) : List α → List (List α)
  | [] => [[]]
  | c :: rest =>
    if c = sep then [] :: splitOn sep rest
    else
      match splitOn sep rest with
      | [] => [[c]]
      | piece :: pieces => (c :: piece) :: pieces

def joinWith (sep : List α) : List (List α) → List α
  | [] => []
  | [piece] => piece
  | piece :: pieces => piece ++ sep ++ joinWith sep pieces

theorem splitOn_ne_nil [DecidableEq α] (sep : α) (cs : List α) : splitOn sep cs ≠ [] := by
  cases cs with
  | nil => simp [splitOn]
  | cons c rest =>
    rw [splitOn]
    split
    · simp
    · split <;> simp

@[simp] theorem joinWith_splitOn [DecidableEq α] (sep : α) (cs : List α) :
    joinWith [sep] (splitOn sep cs) = cs := by
  induction cs with
  | nil => rfl
  | cons c rest ih =>
    have ne := splitOn_ne_nil sep rest
    rw [splitOn]
    split
    · next h =>
      subst h
      cases hs : splitOn c rest with
      | nil => exact absurd hs ne
      | cons piece pieces => rw [hs] at ih; simp [joinWith, ih]
    · split
      · next hs => exact absurd hs ne
      · next piece pieces hs =>
        rw [hs] at ih
        cases pieces with
        | nil => simpa [joinWith] using ih
        | cons second more => simpa [joinWith] using ih

def pieces (sep : Char) (s : String) : List String :=
  (splitOn sep s.toList).map String.ofList

def join (sep : String) (parts : List String) : String := sep.intercalate parts

end ModuleStubs.Text
