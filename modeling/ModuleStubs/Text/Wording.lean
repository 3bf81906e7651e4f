import ModuleStubs.Text.Hex
import ModuleStubs.Text.Utf8

/-! Texts as lists of code points. Such a text may hold one half of a surrogate pair without
the other; then it is torn, and has no bytes. -/

namespace ModuleStubs

inductive CodePoint where
  | char (c : Char)
  | half (n : Fin 0x800)
  deriving DecidableEq, Inhabited

namespace CodePoint

def number : CodePoint → Nat
  | .char c => c.toNat
  | .half n => 0xD800 + n.val

instance : Coe Char CodePoint := ⟨.char⟩

instance : LT CodePoint := ⟨fun a b => a.number < b.number⟩

instance : DecidableLT CodePoint := fun a b => inferInstanceAs (Decidable (a.number < b.number))

instance : Trans (α := CodePoint) (· < ·) (· < ·) (· < ·) := ⟨Nat.lt_trans⟩

def isHalf : CodePoint → Bool
  | .char _ => false
  | .half _ => true

/-- How a code point is shown where only characters can be written. -/
def shown : CodePoint → List Char
  | .char c => [c]
  | .half n => '\\' :: 'u' :: Text.Hex.fixed .lower 4 (0xD800 + n.val)

theorem number_char_ne_half (c : Char) (n : Fin 0x800) : (char c).number ≠ (half n).number := by
  intro same
  have valid : c.toNat < 0xD800 ∨ 0xDFFF < c.toNat ∧ c.toNat < 0x110000 := c.valid
  simp only [number] at same
  omega

theorem number_injective {a b : CodePoint} (same : a.number = b.number) : a = b := by
  cases a with
  | char c =>
    cases b with
    | char d => exact congrArg char (Char.toNat_inj.mp same)
    | half m => exact absurd same (number_char_ne_half c m)
  | half n =>
    cases b with
    | char d => exact absurd same.symm (number_char_ne_half d n)
    | half m => exact congrArg half (Fin.ext (Nat.add_left_cancel same))

instance : Std.Asymm (α := CodePoint) (· < ·) := ⟨fun _ _ => Nat.lt_asymm⟩

instance : Std.Trichotomous (α := CodePoint) (· < ·) :=
  ⟨fun _ _ above below =>
    number_injective (Nat.le_antisymm (Nat.le_of_not_lt below) (Nat.le_of_not_lt above))⟩

end CodePoint

abbrev Wording := List CodePoint

instance : LawfulBEq Wording := inferInstance

/-- The first halves in a text that stand without a partner: where they begin, which one is
the first, and how many follow it. -/
structure Torn where
  position : Nat
  first : Fin 0x800
  more : Nat
  deriving DecidableEq

def Torn.message (e : Torn) : String :=
  let place :=
    if e.more = 0 then
      s!"character '{String.ofList (CodePoint.half e.first).shown}' in position {e.position}"
    else s!"characters in position {e.position}-{e.position + e.more}"
  s!"'utf-8' codec can't encode {place}: surrogates not allowed"

namespace Wording

@[coe] def ofString (s : String) : Wording := s.toList.map .char

instance : Coe String Wording := ⟨ofString⟩

def readAt (position : Nat) : Wording → Except Torn (List Char)
  | [] => .ok []
  | .char c :: rest => (readAt (position + 1) rest).map (c :: ·)
  | .half n :: rest => .error ⟨position, n, (rest.takeWhile CodePoint.isHalf).length⟩

def text (w : Wording) : Except Torn String := (readAt 0 w).map String.ofList

def encode (w : Wording) : Except Torn (List UInt8) := (readAt 0 w).map Text.Utf8.encode

def shown (w : Wording) : String := String.ofList (w.flatMap CodePoint.shown)

@[simp] theorem ofString_empty : ofString "" = [] := rfl

@[simp] theorem ofString_append (s t : String) : ofString (s ++ t) = ofString s ++ ofString t := by
  simp [ofString]

@[simp] theorem ofString_inj {s t : String} : ofString s = ofString t ↔ s = t := by
  constructor
  · intro same
    have chars := List.map_inj_right (fun c d h => CodePoint.char.inj h) |>.mp same
    exact String.toList_inj.mp chars
  · exact congrArg ofString

@[simp] theorem readAt_map_char (position : Nat) (cs : List Char) :
    readAt position (cs.map .char) = .ok cs := by
  induction cs generalizing position with
  | nil => rfl
  | cons c cs ih => rw [List.map_cons, readAt, ih]; rfl

@[simp] theorem text_ofString (s : String) : text s = .ok s := by
  rw [text, ofString, readAt_map_char]
  exact congrArg Except.ok (String.ofList_toList)

@[simp] theorem encode_ofString (s : String) : encode s = .ok (Text.Utf8.encode s.toList) := by
  rw [encode, ofString, readAt_map_char]
  rfl

@[simp] theorem shown_append (v w : Wording) : shown (v ++ w) = shown v ++ shown w := by
  rw [shown, List.flatMap_append, String.ofList_append]
  rfl

@[simp] theorem shown_ofString (s : String) : shown s = s := by
  have chars : ∀ cs : List Char, (cs.map CodePoint.char).flatMap CodePoint.shown = cs := by
    intro cs
    induction cs with
    | nil => rfl
    | cons c cs ih => rw [List.map_cons, List.flatMap_cons, ih]; rfl
  rw [shown, ofString, chars, String.ofList_toList]

end Wording

end ModuleStubs
