import ModuleStubs.Path
import ModuleStubs.Proofs.Text.Splitting

/-! Paths and their texts. A proper path, as it is read from a text, is told apart from
all other proper paths by its text. -/

namespace ModuleStubs

namespace Text

theorem join_cons (part : String) (parts : List String) :
    ∃ rest, join "/" (part :: parts) = part ++ rest := by
  cases parts with
  | nil => exact ⟨"", by rw [join, String.intercalate_singleton, String.append_empty]⟩
  | cons second parts =>
    refine ⟨"/" ++ join "/" (second :: parts), ?_⟩
    rw [← String.append_assoc]
    exact String.intercalate_cons_cons

theorem pieces_join {parts : List String} (filled : parts ≠ [])
    (clean : ∀ part ∈ parts, '/' ∉ part.toList) : pieces '/' (join "/" parts) = parts := by
  induction parts with
  | nil => exact absurd rfl filled
  | cons part parts ih =>
    obtain ⟨first, rest⟩ := List.forall_mem_cons.mp clean
    cases parts with
    | nil => rw [join, String.intercalate_singleton, pieces_of_notMem first]
    | cons second parts =>
      have joined : join "/" (part :: second :: parts) =
          part ++ String.singleton '/' ++ join "/" (second :: parts) :=
        String.intercalate_cons_cons
      rw [joined, pieces_append first, ih (List.cons_ne_nil _ _) rest]

end Text

namespace Path

def Proper (p : Path) : Prop := ∀ part ∈ p.parts, isSilent part = false ∧ '/' ∉ part.toList

theorem filter_of_proper {p : Path} (proper : p.Proper) :
    p.parts.filter (fun part => !isSilent part) = p.parts := by
  rw [List.filter_eq_self]
  intro part mem
  rw [(proper part mem).1]
  rfl

theorem anchorOf_text_append (anchor : Anchor) {c : Char} (other : c ≠ '/')
    (rest : List Char) : anchorOf (anchor.text.toList ++ c :: rest) = anchor := by
  cases anchor with
  | relative =>
    have chars : Anchor.relative.text.toList = [] := by decide
    rw [chars, List.nil_append, anchorOf]
    all_goals simp [other]
  | root =>
    have chars : Anchor.root.text.toList = ['/'] := by decide
    rw [chars, List.singleton_append, anchorOf]
    all_goals simp [other]
  | doubleRoot =>
    have chars : Anchor.doubleRoot.text.toList = ['/', '/'] := by decide
    rw [chars, List.cons_append, List.singleton_append, anchorOf]
    simp [other]

theorem anchorOf_append {p : Path} (proper : p.Proper) (filled : p.parts ≠ []) :
    anchorOf (p.anchor.text ++ Text.join "/" p.parts).toList = p.anchor := by
  obtain ⟨anchor, parts⟩ := p
  cases parts with
  | nil => exact absurd rfl filled
  | cons part parts =>
    obtain ⟨heard, clean⟩ := proper part List.mem_cons_self
    obtain ⟨rest, joined⟩ := Text.join_cons part parts
    have head : ∃ c more, part.toList = c :: more := by
      apply List.exists_cons_of_ne_nil
      intro empty
      rw [String.toList_eq_nil_iff.mp empty] at heard
      exact absurd heard (by decide)
    obtain ⟨c, more, chars⟩ := head
    have other : c ≠ '/' := by
      rintro rfl
      exact clean (chars ▸ List.mem_cons_self)
    rw [joined, String.toList_append, String.toList_append, chars, List.cons_append]
    exact anchorOf_text_append anchor other _

theorem pieces_slash (s : String) : Text.pieces '/' ("/" ++ s) = "" :: Text.pieces '/' s := by
  have same : "/" ++ s = "" ++ String.singleton '/' ++ s := by
    rw [String.empty_append]
    rfl
  rw [same, Text.pieces_append (s := "") (by decide)]

theorem filter_pieces_append (anchor : Anchor) (s : String) :
    (Text.pieces '/' (anchor.text ++ s)).filter (fun part => !isSilent part) =
      (Text.pieces '/' s).filter (fun part => !isSilent part) := by
  cases anchor with
  | relative => rw [Anchor.text, String.empty_append]
  | root =>
    rw [Anchor.text, pieces_slash]
    rfl
  | doubleRoot =>
    have twice : Anchor.doubleRoot.text ++ s = "/" ++ ("/" ++ s) := by
      rw [← String.append_assoc]
      rfl
    rw [twice, pieces_slash, pieces_slash]
    rfl

theorem ofString_text {p : Path} (proper : p.Proper) : ofString p.text = p := by
  -- A path without parts is written as a dot or as its anchor alone.
  by_cases empty : p.parts = []
  · obtain ⟨anchor, parts⟩ := p
    cases empty
    cases anchor <;> rfl
  · rw [text, if_neg fun h => empty h.2, ofString, anchorOf_append proper empty,
      filter_pieces_append, Text.pieces_join empty fun part mem => (proper part mem).2,
      filter_of_proper proper]

theorem text_injective {p q : Path} (hp : p.Proper) (hq : q.Proper) (same : p.text = q.text) :
    p = q := by
  rw [← ofString_text hp, ← ofString_text hq, same]

theorem ofString_of_plain {s : String} (plain : '/' ∉ s.toList) (heard : isSilent s = false) :
    ofString s = ⟨.relative, [s]⟩ := by
  have proper : Proper ⟨.relative, [s]⟩ := by
    intro part mem
    rw [List.mem_singleton.mp mem]
    exact ⟨heard, plain⟩
  have shown : text ⟨.relative, [s]⟩ = s := by
    rw [text, if_neg (by simp), Anchor.text, String.empty_append, Text.join,
      String.intercalate_singleton]
  have read := ofString_text proper
  rwa [shown] at read

/-- Among paths with one start the components tell each path. -/
theorem components_injective {p q : Path} (start : p.anchor = q.anchor)
    (same : p.components = q.components) : p = q := by
  obtain ⟨anchor, parts⟩ := p
  obtain ⟨_, others⟩ := q
  cases start
  rw [components, components] at same
  cases anchor with
  | relative => cases same; rfl
  | root => cases same; rfl
  | doubleRoot => cases same; rfl

end Path

end ModuleStubs
