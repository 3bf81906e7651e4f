import ModuleStubs.Proofs.Text.Encoding
import ModuleStubs.Text.Wording

/-! Texts that are not torn. They are the texts of characters, and no other has bytes. -/

namespace ModuleStubs.Wording

def Whole (w : Wording) : Prop := ∃ s : String, w = ofString s

variable {v w : Wording}

@[simp] theorem whole_ofString (s : String) : Whole (ofString s) := ⟨s, rfl⟩

theorem readAt_eq_ok_iff {position : Nat} {cs : List Char} :
    readAt position w = .ok cs ↔ w = cs.map .char := by
  constructor
  · intro read
    fun_induction readAt position w generalizing cs with
    | case1 => cases read; rfl
    | case2 position c rest ih =>
      cases below : readAt (position + 1) rest with
      | error why => rw [below] at read; cases read
      | ok tail =>
        rw [below] at read
        cases read
        rw [ih below, List.map_cons]
    | case3 => cases read
  · rintro rfl
    exact readAt_map_char position cs

theorem text_eq_ok_iff {s : String} : text w = .ok s ↔ w = ofString s := by
  constructor
  · intro read
    cases chars : readAt 0 w with
    | error why => rw [text, chars] at read; cases read
    | ok cs =>
      rw [text, chars] at read
      cases read
      rw [readAt_eq_ok_iff.mp chars, ofString, String.toList_ofList]
  · rintro rfl
    exact text_ofString s

theorem encode_eq_ok_iff {bytes : List UInt8} :
    encode w = .ok bytes ↔ ∃ s : String, w = ofString s ∧ bytes = Text.Utf8.encode s.toList := by
  constructor
  · intro encoded
    cases chars : readAt 0 w with
    | error why => rw [encode, chars] at encoded; cases encoded
    | ok cs =>
      rw [encode, chars] at encoded
      cases encoded
      exact ⟨String.ofList cs, by rw [readAt_eq_ok_iff.mp chars, ofString, String.toList_ofList],
        by rw [String.toList_ofList]⟩
  · rintro ⟨s, rfl, rfl⟩
    exact encode_ofString s

theorem encode_inj {bytes : List UInt8} (first : encode v = .ok bytes)
    (second : encode w = .ok bytes) : v = w := by
  obtain ⟨s, rfl, there⟩ := encode_eq_ok_iff.mp first
  obtain ⟨t, rfl, same⟩ := encode_eq_ok_iff.mp second
  rw [String.toList_injective (Text.Utf8.encode_injective (there.symm.trans same))]

theorem encode_isOk_iff : (encode w).isOk = true ↔ Whole w := by
  constructor
  · intro ok
    cases encoded : encode w with
    | error why => rw [encoded] at ok; cases ok
    | ok bytes => exact (encode_eq_ok_iff.mp encoded).imp fun s both => both.1
  · rintro ⟨s, rfl⟩
    rw [encode_ofString]
    rfl

theorem whole_append_iff : Whole (v ++ w) ↔ Whole v ∧ Whole w := by
  constructor
  · rintro ⟨s, whole⟩
    obtain ⟨front, back, chars, rfl, rfl⟩ := List.map_eq_append_iff.mp whole.symm
    exact ⟨⟨String.ofList front, by rw [ofString, String.toList_ofList]⟩,
      ⟨String.ofList back, by rw [ofString, String.toList_ofList]⟩⟩
  · rintro ⟨⟨s, rfl⟩, ⟨t, rfl⟩⟩
    exact ⟨s ++ t, (ofString_append s t).symm⟩

end ModuleStubs.Wording
