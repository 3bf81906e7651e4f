import Mathlib.Data.List.Chain
import ModuleStubs.Text.Wording

/-! Texts in which no first half of a surrogate pair stands right before a second one. Only of
these can be said which halves were written. -/

namespace ModuleStubs

namespace CodePoint

def isHigh : CodePoint → Bool
  | .char _ => false
  | .half n => n.val < 0x400

def isLow : CodePoint → Bool
  | .char _ => false
  | .half n => 0x400 ≤ n.val

end CodePoint

namespace Wording

def Joined (w : Wording) : Prop := w.IsChain fun a b => a.isHigh = true → b.isLow = false

theorem joined_nil : Joined [] := .nil

theorem joined_cons {c : CodePoint} {w : Wording} :
    Joined (c :: w) ↔ (c.isHigh = true → ∀ next ∈ w.head?, next.isLow = false) ∧ Joined w := by
  rw [Joined, List.isChain_cons]
  exact and_congr_left fun _ => ⟨fun h high next mem => h next mem high,
    fun h next mem high => h high next mem⟩

theorem joined_char_cons {c : Char} {w : Wording} : Joined (.char c :: w) ↔ Joined w := by
  rw [joined_cons]
  exact and_iff_right nofun

@[simp] theorem joined_ofString (s : String) : Joined (ofString s) := by
  rw [ofString]
  induction s.toList with
  | nil => exact joined_nil
  | cons c cs ih => exact joined_char_cons.mpr ih

theorem Joined.append_char {w : Wording} (joined : w.Joined) (c : Char) :
    Joined (w ++ [.char c]) := by
  refine List.isChain_append.mpr ⟨joined, .singleton _, ?_⟩
  rintro a - _ ⟨⟩
  exact fun _ => rfl

end Wording

end ModuleStubs
