/-! A place in YAML text: what is left to read, and where the place is. -/

namespace ModuleStubs.Yaml

def lineSeparator : Char := Char.ofNat 0x2028

def paragraphSeparator : Char := Char.ofNat 0x2029

def nextLine : Char := Char.ofNat 0x85

def byteOrderMark : Char := Char.ofNat 0xFEFF

def isBreak (c : Char) : Bool :=
  c = '\n' || c = nextLine || c = lineSeparator || c = paragraphSeparator

def isBlank (c : Char) : Bool := c = ' ' || c = '\t'

def isInLine (ch : Char) : Bool := !isBreak ch && ch ≠ byteOrderMark

def endsWord : Option Char → Bool
  | none => true
  | some c => isBlank c || isBreak c

def endsLine : Option Char → Bool
  | none => true
  | some c => isBreak c

structure Cursor where
  rest : List Char
  index : Nat
  line : Nat
  column : Nat

namespace Cursor

def start (cs : List Char) : Cursor := ⟨cs, 0, 0, 0⟩

def step (c : Cursor) : Cursor :=
  match c.rest with
  | [] => c
  | ch :: rest =>
    if isBreak ch then ⟨rest, c.index + 1, c.line + 1, 0⟩
    else ⟨rest, c.index + 1, c.line, if ch = byteOrderMark then c.column else c.column + 1⟩

def skip : (n : Nat) → Cursor → Cursor
  | 0, c => c
  | n + 1, c => skip n c.step

def peek (c : Cursor) : Option Char := c.rest.head?

def peekAt (c : Cursor) (n : Nat) : Option Char := c.rest[n]?

def sees (c : Cursor) (ch : Char) : Bool := c.peek = some ch

def run (p : Char → Bool) (c : Cursor) : List Char × Cursor :=
  let taken := c.rest.takeWhile p
  (taken, c.skip taken.length)

def skipWhile (p : Char → Bool) (c : Cursor) : Cursor := (c.run p).2

def skipSpaces (c : Cursor) : Cursor := c.skipWhile (· = ' ')

def skipSpacesUpTo (n : Nat) (c : Cursor) : Cursor :=
  c.skip (min n (c.rest.takeWhile (· = ' ')).length)

/-- The end of a line as text: the two separators stand for themselves. -/
def lineBreak? (c : Cursor) : Option (Char × Cursor) :=
  match c.rest with
  | ch :: _ =>
    if isBreak ch then some (if ch = nextLine then '\n' else ch, c.step) else none
  | [] => none

def skipComment (c : Cursor) : Cursor :=
  if c.sees '#' then c.skipWhile fun ch => !isBreak ch else c

def seesMarker (mark : Char) (c : Cursor) : Bool :=
  c.rest.take 3 = [mark, mark, mark] && endsWord (c.peekAt 3)

def seesDocumentMarker (c : Cursor) : Bool := c.seesMarker '-' || c.seesMarker '.'

theorem step_inLine {ch : Char} (within : isInLine ch = true) (rest : List Char)
    (index line column : Nat) :
    step ⟨ch :: rest, index, line, column⟩ = ⟨rest, index + 1, line, column + 1⟩ := by
  have parts : isBreak ch = false ∧ ch ≠ byteOrderMark := by simpa [isInLine] using within
  simp [step, parts]

theorem skip_inLine {word : List Char} (within : ∀ ch ∈ word, isInLine ch = true)
    (rest : List Char) (index line column : Nat) :
    skip word.length ⟨word ++ rest, index, line, column⟩ =
      ⟨rest, index + word.length, line, column + word.length⟩ := by
  induction word generalizing index column with
  | nil => rfl
  | cons ch word ih =>
    obtain ⟨first, others⟩ := List.forall_mem_cons.mp within
    rw [List.length_cons, skip, List.cons_append, step_inLine first, ih others]
    simp only [Nat.add_assoc, Nat.add_comm 1]

theorem run_inLine {p : Char → Bool} {word rest : List Char}
    (within : ∀ ch ∈ word, isInLine ch = true) (all : ∀ ch ∈ word, p ch = true)
    (stops : ∀ ch ∈ rest.head?, p ch = false) (index line column : Nat) :
    run p ⟨word ++ rest, index, line, column⟩ =
      (word, ⟨rest, index + word.length, line, column + word.length⟩) := by
  have taken : (word ++ rest).takeWhile p = word := by
    rw [List.takeWhile_append_of_pos all]
    cases rest with
    | nil => simp
    | cons ch rest => simp [stops ch rfl]
  rw [run, taken, skip_inLine within]

theorem run_of_head {p : Char → Bool} {c : Cursor} (stops : ∀ ch ∈ c.rest.head?, p ch = false) :
    c.run p = ([], c) := by
  have none : c.rest.takeWhile p = [] := by
    cases rest : c.rest with
    | nil => rfl
    | cons ch more => simp [stops ch (by rw [rest]; rfl)]
  simp [run, none, skip]

theorem skipSpaces_of_head {c : Cursor} (solid : ∀ ch ∈ c.rest.head?, ch ≠ ' ') :
    c.skipSpaces = c := by
  have none := run_of_head (p := (· = ' ')) (c := c) (by simpa using solid)
  rw [skipSpaces, skipWhile, none]

theorem lineBreak?_of_head {c : Cursor} (within : ∀ ch ∈ c.rest.head?, isBreak ch = false) :
    c.lineBreak? = none := by
  cases rest : c.rest with
  | nil => simp [lineBreak?, rest]
  | cons ch more => simp [lineBreak?, rest, within ch (by rw [rest]; rfl)]

theorem seesMarker_of_ne {mark ch : Char} (other : ch ≠ mark) (rest : List Char)
    (index line column : Nat) : seesMarker mark ⟨ch :: rest, index, line, column⟩ = false := by
  simp [seesMarker, other]

end Cursor

end ModuleStubs.Yaml
