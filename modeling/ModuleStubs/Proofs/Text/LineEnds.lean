import Mathlib.Data.List.Infix
import ModuleStubs.Proofs.Text.Encoding
import ModuleStubs.Text.Newline

/-! What unified line ends do to text and to its bytes. A lone carriage return is
replaced by a character of the same size; only a carriage return before a line feed
takes a byte away. -/

namespace ModuleStubs.Text

def unifiedEnd (c : Char) : Char := if c = '\r' then '\n' else c

def HasPair (cs : List Char) : Prop := ['\r', '\n'] <:+: cs

theorem unifyNewlines_cons {c : Char} {cs : List Char} (h : c = '\r' → cs.head? ≠ some '\n') :
    unifyNewlines (c :: cs) = unifiedEnd c :: unifyNewlines cs := by
  rw [unifyNewlines]
  · rfl
  · rintro rest rfl rfl
    exact h rfl rfl

theorem not_hasPair_tail {c : Char} {cs : List Char} (h : ¬ HasPair (c :: cs)) : ¬ HasPair cs :=
  fun pair => h (pair.trans (List.suffix_cons c cs).isInfix)

/-- Without pairs every character keeps its place, up to the end of the text. -/
theorem unifyNewlines_append {front : List Char} (single : ¬ HasPair front)
    (closed : front.getLast? ≠ some '\r') (back : List Char) :
    unifyNewlines (front ++ back) = front.map unifiedEnd ++ unifyNewlines back := by
  induction front with
  | nil => rfl
  | cons c front ih =>
    have next : c = '\r' → (front ++ back).head? ≠ some '\n' := by
      rintro rfl
      cases front with
      | nil => simp at closed
      | cons d front =>
        intro hd
        rw [List.cons_append, List.head?_cons, Option.some.injEq] at hd
        exact single ⟨[], front, by simp [hd]⟩
    have rest : front.getLast? ≠ some '\r' := by
      cases front with
      | nil => simp
      | cons d front => simpa using closed
    rw [List.cons_append, unifyNewlines_cons next, ih (not_hasPair_tail single) rest]
    rfl

theorem return_notMem_unifyNewlines (cs : List Char) : '\r' ∉ unifyNewlines cs := by
  fun_induction unifyNewlines cs with
  | case1 => simp
  | case2 rest ih => simpa using ih
  | case3 c rest _ ih =>
    rw [List.mem_cons, not_or]
    refine ⟨?_, ih⟩
    split
    · decide
    · next other => exact fun h => other h.symm

theorem map_unifiedEnd_of_notMem {cs : List Char} (h : '\r' ∉ cs) : cs.map unifiedEnd = cs := by
  refine (List.map_congr_left fun c hc => ?_).trans (List.map_id cs)
  exact if_neg (fun (hr : c = '\r') => h (hr ▸ hc))

theorem length_encode_unifiedEnd (cs : List Char) :
    (Utf8.encode (cs.map unifiedEnd)).length = (Utf8.encode cs).length := by
  induction cs with
  | nil => rfl
  | cons c cs ih =>
    have size : (String.utf8EncodeChar (unifiedEnd c)).length =
        (String.utf8EncodeChar c).length := by
      by_cases h : c = '\r'
      · subst h; rfl
      · simp [unifiedEnd, h]
    simp only [List.map_cons, Utf8.encode_cons, List.length_append, ih, size]

namespace Utf8

def returnByte : UInt8 := 13

theorem high_of_mem {c : Char} {b : UInt8} (long : 127 < c.val.toNat)
    (h : b ∈ String.utf8EncodeChar c) : 128 ≤ b.toNat := by
  have bounds := val_bounds c
  have byte : ∀ n, 128 ≤ n → n < 256 → b = UInt8.ofNat n → 128 ≤ b.toNat := by
    rintro n low high rfl
    rwa [toNat_byte high]
  simp only [String.utf8EncodeChar] at h
  split_ifs at h with one two three
  · omega
  all_goals simp only [List.mem_cons, List.not_mem_nil, or_false] at h
  · rcases h with h | h <;> exact byte _ (by omega) (by omega) h
  · rcases h with h | h | h <;> exact byte _ (by omega) (by omega) h
  · rcases h with h | h | h | h <;> exact byte _ (by omega) (by omega) h

theorem eq_return_of_mem {c : Char} (h : returnByte ∈ String.utf8EncodeChar c) : c = '\r' := by
  by_cases long : 127 < c.val.toNat
  · exact absurd (high_of_mem long h) (by decide)
  · have short : c.val.toNat ≤ 127 := by omega
    simp only [String.utf8EncodeChar, short, if_true, List.mem_singleton] at h
    have value := congrArg UInt8.toNat h
    rw [toNat_byte (by omega)] at value
    exact Char.ext (UInt32.toNat_inj.mp value.symm)

theorem return_notMem_encode {cs : List Char} (h : '\r' ∉ cs) : returnByte ∉ encode cs := by
  intro mem
  obtain ⟨c, hc, hb⟩ := List.mem_flatMap.mp mem
  exact h (eq_return_of_mem hb ▸ hc)

theorem lead_of_front_return {b : UInt8} {rest : List UInt8} {more : Nat}
    (h : front b rest = .char '\r' more) : b = returnByte := by
  have code : String.utf8EncodeChar '\r' = [returnByte] := rfl
  have whole := code_of_front h
  rw [code, List.singleton_append] at whole
  exact (List.cons.inj whole).1.symm

theorem returnByte_mem_of_decodeLenient {bytes : List UInt8} (h : '\r' ∈ decodeLenient bytes) :
    returnByte ∈ bytes := by
  fun_induction decodeLenient bytes with
  | case1 => simp at h
  | case2 b rest c more front_eq ih =>
    rcases List.mem_cons.mp h with rfl | later
    · exact List.mem_cons.mpr (.inl (lead_of_front_return front_eq).symm)
    · exact List.mem_cons_of_mem b (List.mem_of_mem_drop (ih later))
  | case3 b rest why more front_eq ih =>
    rcases List.mem_cons.mp h with replaced | later
    · exact absurd replaced (by decide)
    · exact List.mem_cons_of_mem b (List.mem_of_mem_drop (ih later))

end Utf8

end ModuleStubs.Text
