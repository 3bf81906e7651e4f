import ModuleStubs.Text.Cut

/-! Wildcard patterns: a star stands for any text, a question mark for any
character, brackets for one character of a set. All else stands for itself. -/

namespace ModuleStubs

namespace Wildcard

/-- A set of characters as pieces: the last character of a piece and the first of
the next one are the ends of a range. -/
structure CharSet where
  negated : Bool
  pieces : List (List Char)

inductive Mark where
  | run
  | one
  | char (c : Char)
  | set (s : CharSet)

def CharSet.hasPiece (c : Char) : List (List Char) → Bool
  | [] => false
  | [piece] => piece.contains c
  | piece :: next :: rest =>
    piece.contains c || hasPiece c (next :: rest) ||
      match piece.getLast?, next.head? with
      | some first, some last => first ≤ c && c ≤ last
      | _, _ => c = '-'

def CharSet.contains (s : CharSet) (c : Char) : Bool := hasPiece c s.pieces != s.negated

def Mark.fits (c : Char) : Mark → Bool
  | .run => true
  | .one => true
  | .char d => c = d
  | .set s => s.contains c

def cutAtHyphen? (skip : Nat) (cs : List Char) : Option (List Char × List Char) :=
  (Text.cutAt? ['-'] (cs.drop skip)).map fun cut => (cs.take skip ++ cut.1, cut.2)

/-- The pieces between hyphens; a hyphen right after the start of a piece or at the
end is an ordinary character. -/
def piecesFrom (fuel skip : Nat) (cs : List Char) : List (List Char) :=
  match fuel, cutAtHyphen? skip cs with
  | fuel + 1, some (before, after) =>
    if after.isEmpty then [before ++ ['-']] else before :: piecesFrom fuel 2 after
  | _, _ => [cs]

def isReversed (piece next : List Char) : Bool :=
  match piece.getLast?, next.head? with
  | some first, some last => last < first
  | _, _ => false

def dropReversed : List (List Char) → List (List Char)
  | [] => []
  | piece :: rest =>
    match dropReversed rest with
    | [] => [piece]
    | next :: more =>
      if isReversed piece next then (piece.dropLast ++ next.tail) :: more
      else piece :: next :: more

def charSet (cs : List Char) : CharSet :=
  let skip := if cs.head? = some '!' then 2 else 1
  match dropReversed (piecesFrom cs.length skip cs) with
  | ('!' :: piece) :: rest => ⟨true, piece :: rest⟩
  | pieces => ⟨false, pieces⟩

/-- Whatever may stand before the closing bracket without ending the set. -/
def setLead : List Char → Nat
  | '!' :: ']' :: _ => 2
  | '!' :: _ => 1
  | ']' :: _ => 1
  | _ => 0

def bracketed? (cs : List Char) : Option (List Char × List Char) :=
  (Text.cutAt? [']'] (cs.drop (setLead cs))).map fun cut => (cs.take (setLead cs) ++ cut.1, cut.2)

def marksFrom (fuel : Nat) (cs : List Char) : List Mark :=
  match fuel, cs with
  | fuel + 1, '*' :: rest => .run :: marksFrom fuel rest
  | fuel + 1, '?' :: rest => .one :: marksFrom fuel rest
  | fuel + 1, '[' :: rest =>
    match bracketed? rest with
    | some (inside, rest) => .set (charSet inside) :: marksFrom fuel rest
    | none => .char '[' :: marksFrom fuel rest
  | fuel + 1, c :: rest => .char c :: marksFrom fuel rest
  | _, _ => []

def marks (cs : List Char) : List Mark := marksFrom cs.length cs

def suffixes : List Char → List (List Char)
  | [] => [[]]
  | c :: cs => (c :: cs) :: suffixes cs

def accepts : List Mark → List Char → Bool
  | [], cs => cs.isEmpty
  | .run :: ms, cs => (suffixes cs).any (accepts ms)
  | m :: ms, cs =>
    match cs with
    | [] => false
    | c :: cs => m.fits c && accepts ms cs

def fits (pattern text : String) : Bool := accepts (marks pattern.toList) text.toList

def isWild (part : String) : Bool := part.toList.any fun c => c = '*' || c = '?' || c = '['

theorem mem_suffixes {t cs : List Char} : t ∈ suffixes cs ↔ ∃ u, cs = u ++ t := by
  induction cs with
  | nil => simp [suffixes, eq_comm]
  | cons c cs ih =>
    rw [suffixes, List.mem_cons, ih]
    constructor
    · rintro (rfl | ⟨u, rfl⟩)
      · exact ⟨[], rfl⟩
      · exact ⟨c :: u, rfl⟩
    · rintro ⟨u, hu⟩
      cases u with
      | nil => exact .inl hu.symm
      | cons d u => cases hu; exact .inr ⟨u, rfl⟩

end Wildcard

end ModuleStubs
