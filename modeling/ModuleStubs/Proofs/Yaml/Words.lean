import ModuleStubs.Proofs.Yaml.QuotedText
import ModuleStubs.Yaml.PlainScalar

/-! Words without quotes, of letters, digits, dots and dashes. A plain scalar that is one word
is read up to the colon or the line end behind it. -/

namespace ModuleStubs.Yaml

def isWordPart (ch : Char) : Bool := ch.isAlphanum || ch = '.' || ch = '-'

structure Word where
  chars : List Char
  begins : chars.head?.any Char.isAlphanum = true
  parts : chars.all isWordPart = true

theorem ne_of_isAlphanum {ch : Char} (sign : ch.isAlphanum = true) (other : Char)
    (outside : other.isAlphanum = false) : ch ≠ other := by
  rintro rfl
  rw [sign] at outside
  cases outside

theorem ne_of_isWordPart {ch : Char} (part : isWordPart ch = true) (other : Char)
    (outside : isWordPart other = false) : ch ≠ other := by
  rintro rfl
  rw [part] at outside
  cases outside

theorem isPlainAscii_of_isWordPart {ch : Char} (part : isWordPart ch = true) :
    isPlainAscii ch = true := by
  rw [isWordPart] at part
  delta Char.isAlphanum Char.isAlpha Char.isUpper Char.isLower Char.isDigit at part
  simp only [Bool.or_eq_true, Bool.and_eq_true, decide_eq_true_eq, UInt32.le_iff_toNat_le] at part
  have code : ch.toNat = ch.val.toNat := rfl
  rcases part with ((letter | digit) | rfl) | rfl
  · simp only [isPlainAscii, Bool.and_eq_true, decide_eq_true_eq, code]
    simp at letter
    omega
  · simp only [isPlainAscii, Bool.and_eq_true, decide_eq_true_eq, code]
    simp at digit
    omega
  · rfl
  · rfl

theorem isInLine_of_isWordPart {ch : Char} (part : isWordPart ch = true) : isInLine ch = true :=
  isInLine_of_isPlainAscii (isPlainAscii_of_isWordPart part)

theorem isBreak_of_isWordPart {ch : Char} (part : isWordPart ch = true) : isBreak ch = false := by
  have inLine := isInLine_of_isWordPart part
  simp only [isInLine, Bool.and_eq_true, Bool.not_eq_true'] at inLine
  exact inLine.1

theorem isSolid_of_isWordPart {ch : Char} (part : isWordPart ch = true) : isSolid ch = true := by
  simp [isSolid_iff, isBlank, isBreak_of_isWordPart part, ne_of_isWordPart part ' ' rfl,
    ne_of_isWordPart part '\t' rfl]

theorem isSolid_of_isAlphanum {ch : Char} (sign : ch.isAlphanum = true) : isSolid ch = true :=
  isSolid_of_isWordPart (by simp [isWordPart, sign])

theorem Word.ne_nil (w : Word) : w.chars ≠ [] := by
  intro none
  have begins := w.begins
  rw [none] at begins
  cases begins

theorem Word.exists_cons (w : Word) :
    ∃ ch more, w.chars = ch :: more ∧ ch.isAlphanum = true := by
  obtain ⟨ch, more, chars⟩ := List.exists_cons_of_ne_nil w.ne_nil
  refine ⟨ch, more, chars, ?_⟩
  simpa [chars] using w.begins

theorem plainRun_append {word rest : List Char} (parts : word.all isWordPart = true) {ch : Char}
    (stops : stopsPlain false ch rest.head? = true) :
    plainRun false (word ++ ch :: rest) = word := by
  induction word with
  | nil => simp [plainRun, stops]
  | cons first word ih =>
    simp only [List.all_cons, Bool.and_eq_true] at parts
    have solid := endsWord_of_isSolid (isSolid_of_isWordPart parts.1)
    have goesOn (next : Option Char) : stopsPlain false first next = false := by
      simp [stopsPlain, solid, ne_of_isWordPart parts.1 ':' rfl]
    simp [plainRun, goesOn, ih parts.2]

/-- What may follow the end of a line: nothing, a word or the mark of an item. -/
def beginsLine : List Char → Bool
  | [] => true
  | ch :: rest => ch.isAlphanum || (ch = '-' && rest.head? = some ' ')

namespace Cursor

theorem seesDocumentMarker_of_beginsLine {rest : List Char} (begins : beginsLine rest = true)
    (index line column : Nat) : seesDocumentMarker ⟨rest, index, line, column⟩ = false := by
  rcases rest with _ | ⟨ch, _ | ⟨next, rest⟩⟩
  · rfl
  · simp [seesDocumentMarker, seesMarker]
  · simp only [beginsLine, Bool.or_eq_true, Bool.and_eq_true, decide_eq_true_eq, List.head?_cons,
      Option.some.injEq] at begins
    rcases begins with sign | ⟨rfl, rfl⟩
    · simp [seesDocumentMarker, seesMarker, ne_of_isAlphanum sign '-' rfl,
        ne_of_isAlphanum sign '.' rfl]
    · rfl

end Cursor

theorem head_of_beginsLine {rest : List Char} (begins : beginsLine rest = true) {ch : Char}
    (first : ch ∈ rest.head?) : isWordPart ch = true := by
  cases rest with
  | nil => cases first
  | cons head more =>
    cases Option.some.inj first
    simp only [beginsLine, Bool.or_eq_true, Bool.and_eq_true, decide_eq_true_eq] at begins
    rcases begins with sign | ⟨rfl, -⟩
    · simp [isWordPart, sign]
    · rfl

theorem plainGap_of_solid {ch : Char} (solid : isSolid ch = true) (rest : List Char)
    (index line column : Nat) :
    plainGap ⟨ch :: rest, index, line, column⟩ =
      ⟨[], false, ⟨ch :: rest, index, line, column⟩⟩ := by
  obtain ⟨noBlank, noBreak⟩ := isSolid_iff.mp solid
  have noSpace : ch ≠ ' ' := by
    rintro rfl
    cases noBlank
  have stays : Cursor.lineBreak? ⟨ch :: rest, index, line, column⟩ = none :=
    Cursor.lineBreak?_of_head (by simpa using noBreak)
  have none := Cursor.run_of_head (p := (· = ' ')) (c := ⟨ch :: rest, index, line, column⟩)
    (by simp [noSpace])
  simp only [plainGap, none, stays]

theorem plainGap_of_newline {rest : List Char} (begins : beginsLine rest = true)
    (index line column : Nat) :
    plainGap ⟨'\n' :: rest, index, line, column⟩ =
      ⟨[' '], true, ⟨rest, index + 1, line + 1, 0⟩⟩ := by
  have noSpace := Cursor.run_of_head (p := (· = ' ')) (c := ⟨'\n' :: rest, index, line, column⟩)
    (by simp)
  have next : Cursor.lineBreak? ⟨'\n' :: rest, index, line, column⟩ =
      some ('\n', ⟨rest, index + 1, line + 1, 0⟩) := rfl
  have marker := Cursor.seesDocumentMarker_of_beginsLine begins (index + 1) (line + 1) 0
  have onlyOne : plainBreaks (rest.length + 1) ⟨rest, index + 1, line + 1, 0⟩ =
      (some [], ⟨rest, index + 1, line + 1, 0⟩) := by
    have stays : Cursor.skipSpaces ⟨rest, index + 1, line + 1, 0⟩ =
        ⟨rest, index + 1, line + 1, 0⟩ :=
      Cursor.skipSpaces_of_head fun _ first =>
        ne_of_isWordPart (head_of_beginsLine begins first) ' ' rfl
    have noBreak : Cursor.lineBreak? ⟨rest, index + 1, line + 1, 0⟩ = none :=
      Cursor.lineBreak?_of_head fun _ first =>
        isBreak_of_isWordPart (head_of_beginsLine begins first)
    simp only [plainBreaks, stays, noBreak]
  simp only [plainGap, noSpace, next, marker, onlyOne]
  rfl

section

variable {word : List Char} (parts : word.all isWordPart = true) (filled : word ≠ [])

include parts

theorem skip_word (rest : List Char) (index line column : Nat) :
    Cursor.skip word.length ⟨word ++ rest, index, line, column⟩ =
      ⟨rest, index + word.length, line, column + word.length⟩ :=
  Cursor.skip_inLine (fun ch mem => isInLine_of_isWordPart (List.all_eq_true.mp parts ch mem))
    rest index line column

include filled

theorem sees_comment_word (rest : List Char) (index line column : Nat) :
    Cursor.sees ⟨word ++ rest, index, line, column⟩ '#' = false := by
  obtain ⟨first, more, rfl⟩ := List.exists_cons_of_ne_nil filled
  simp only [List.all_cons, Bool.and_eq_true] at parts
  simp [Cursor.sees, Cursor.peek, ne_of_isWordPart parts.1 '#' rfl]

theorem plainScalar_before_colon {rest : List Char} (ends : endsWord rest.head? = true)
    (fuel : Nat) (indent : Int) (index line column : Nat) :
    plainScalar (fuel + 1) false indent ⟨word ++ ':' :: rest, index, line, column⟩ =
      ⟨word, false, ⟨':' :: rest, index + word.length, line, column + word.length⟩⟩ := by
  have run : plainRun false (word ++ ':' :: rest) = word :=
    plainRun_append parts (by simp [stopsPlain, ends])
  have noComment := sees_comment_word parts filled (':' :: rest) index line column
  have colon : isSolid ':' = true := rfl
  have gap := plainGap_of_solid colon rest (index + word.length) line
    (column + word.length)
  simp [plainScalar, noComment, run, filled, skip_word parts, gap]

/-- A plain scalar does not go on over a line that begins left of its indentation. -/
theorem plainScalar_before_newline {rest : List Char} (begins : beginsLine rest = true)
    (fuel : Nat) {indent : Int} (deep : 0 < indent) (index line column : Nat) :
    plainScalar (fuel + 1) false indent ⟨word ++ '\n' :: rest, index, line, column⟩ =
      ⟨word, true, ⟨rest, index + word.length + 1, line + 1, 0⟩⟩ := by
  have run : plainRun false (word ++ '\n' :: rest) = word := plainRun_append parts rfl
  have noComment := sees_comment_word parts filled ('\n' :: rest) index line column
  have gap := plainGap_of_newline begins (index + word.length) line (column + word.length)
  simp [plainScalar, noComment, run, filled, skip_word parts, gap, deep]

end

end ModuleStubs.Yaml
