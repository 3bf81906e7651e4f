import Mathlib.Tactic.SplitIfs
import ModuleStubs.Yaml.Writer

/-! Texts in double quotes. What is written stays on one line and is ASCII, and reading takes
back every character: as itself, as a short escape or as a numeric one. -/

namespace ModuleStubs.Yaml

open Text

theorem isInLine_of_isPlainAscii {ch : Char} (plain : isPlainAscii ch = true) :
    isInLine ch = true := by
  have bounds : 32 ≤ ch.toNat ∧ ch.toNat < 127 := by simpa [isPlainAscii] using plain
  have apart : ∀ other : Char, ¬ (32 ≤ other.toNat ∧ other.toNat < 127) → ch ≠ other :=
    fun other outside same => outside (same ▸ bounds)
  have breaks : ch ≠ '\n' ∧ ch ≠ nextLine ∧ ch ≠ lineSeparator ∧ ch ≠ paragraphSeparator ∧
      ch ≠ byteOrderMark :=
    ⟨apart _ (by decide), apart _ (by decide), apart _ (by decide), apart _ (by decide),
      apart _ (by decide)⟩
  simp [isInLine, isBreak, breaks]

theorem isPlainAscii_hexDigit (n : Nat) (small : n < 16) :
    isPlainAscii (Hex.digit .upper n) = true := by
  have table : ∀ n : Fin 16, isPlainAscii (Hex.digit .upper n.val) = true := by decide
  exact table ⟨n, small⟩

theorem isPlainAscii_of_mem_fixed {width n : Nat} {ch : Char}
    (mem : ch ∈ Hex.fixed .upper width n) : isPlainAscii ch = true := by
  induction width generalizing n with
  | zero => cases mem
  | succ width ih =>
    rcases List.mem_append.mp mem with early | last
    · exact ih early
    · rw [List.mem_singleton.mp last]
      exact isPlainAscii_hexDigit _ (Nat.mod_lt n (by decide))

theorem isPlainAscii_of_mem_numericEscape {n : Nat} {ch : Char} (mem : ch ∈ numericEscape n) :
    isPlainAscii ch = true := by
  unfold numericEscape at mem
  split_ifs at mem <;> rcases List.mem_cons.mp mem with rfl | digit
  all_goals first
    | rfl
    | exact isPlainAscii_of_mem_fixed digit

theorem isPlainAscii_of_shortEscape? {c letter : Char} (short : shortEscape? c = some letter) :
    isPlainAscii letter = true := by
  unfold shortEscape? at short
  split at short <;> cases short <;> rfl

theorem isPlainAscii_of_mem_writeChar {c ch : Char} (mem : ch ∈ writeChar c) :
    isPlainAscii ch = true := by
  unfold writeChar at mem
  split at mem
  · next letter short =>
    rcases List.mem_cons.mp mem with rfl | last
    · rfl
    · rw [List.mem_singleton.mp last]
      exact isPlainAscii_of_shortEscape? short
  · split_ifs at mem with plain
    · rw [List.mem_singleton.mp mem]
      exact plain
    · rcases List.mem_cons.mp mem with rfl | code
      · rfl
      · exact isPlainAscii_of_mem_numericEscape code

theorem isPlainAscii_of_mem_flatMap_writeChar {cs : List Char} {ch : Char}
    (mem : ch ∈ cs.flatMap writeChar) : isPlainAscii ch = true := by
  obtain ⟨c, -, written⟩ := List.mem_flatMap.mp mem
  exact isPlainAscii_of_mem_writeChar written

theorem isPlainAscii_of_mem_writeQuoted {cs : List Char} {ch : Char} (mem : ch ∈ writeQuoted cs) :
    isPlainAscii ch = true := by
  rw [writeQuoted] at mem
  rcases List.mem_append.mp mem with front | last
  · rcases List.mem_cons.mp front with rfl | written
    · rfl
    · exact isPlainAscii_of_mem_flatMap_writeChar written
  · rw [List.mem_singleton.mp last]
    rfl

def isSolid (ch : Char) : Bool := !endsWord (some ch)

theorem isSolid_iff {ch : Char} : isSolid ch = true ↔ isBlank ch = false ∧ isBreak ch = false := by
  simp [isSolid, endsWord]

theorem endsWord_of_isSolid {ch : Char} (solid : isSolid ch = true) : endsWord (some ch) = false :=
  (Bool.not_eq_true' _).mp solid

theorem isSolid_of_mem_writeChar {c : Char} (solid : c ≠ ' ') {ch : Char}
    (mem : ch ∈ (writeChar c).head?) : isSolid ch = true := by
  unfold writeChar at mem
  split at mem
  · rw [← Option.mem_some.mp mem]
    rfl
  · split_ifs at mem with plain
    · rw [← Option.mem_some.mp mem]
      have inLine := isInLine_of_isPlainAscii plain
      have noTab : c ≠ '\t' := by rintro rfl; revert plain; decide
      simp_all [isSolid, endsWord, isBlank, isInLine]
    · rw [← Option.mem_some.mp mem]
      rfl

theorem charOfCode_toNat (c : Char) : charOfCode c.toNat = .ok c := by
  have valid : c.toNat < 0xD800 ∨ 0xDFFF < c.toNat ∧ c.toNat < 0x110000 := c.valid
  rw [charOfCode, if_neg (by omega), if_neg (by omega), Char.ofNat_toNat]

theorem escape_named {letter c : Char} (named : namedEscape? letter = some c)
    (within : isInLine letter = true) (rest : List Char) (index line column : Nat) :
    escape ⟨letter :: rest, index, line, column⟩ =
      .ok ([c], ⟨rest, index + 1, line, column + 1⟩) := by
  simp only [escape, named, Cursor.step_inLine within]

theorem escape_coded {letter c : Char} {width : Nat} (unnamed : namedEscape? letter = none)
    (wide : escapeWidth? letter = some width) (within : isInLine letter = true)
    (room : c.toNat < Nat.pow 16 width) (rest : List Char) (index line column : Nat) :
    escape ⟨letter :: (Hex.fixed .upper width c.toNat ++ rest), index, line, column⟩ =
      .ok ([c], ⟨rest, index + 1 + width, line, column + 1 + width⟩) := by
  have digits : (Hex.fixed .upper width c.toNat).all Hex.isDigit = true :=
    List.all_eq_true.mpr fun _ mem => Hex.isDigit_of_mem_fixed mem
  have taken : (Hex.fixed .upper width c.toNat ++ rest).take width =
      Hex.fixed .upper width c.toNat := List.take_left' (Hex.length_fixed _ _ _)
  have onLine : ∀ ch ∈ Hex.fixed .upper width c.toNat, isInLine ch = true :=
    fun _ mem => isInLine_of_isPlainAscii (isPlainAscii_of_mem_fixed mem)
  have skipped (i j : Nat) :
      Cursor.skip width ⟨Hex.fixed .upper width c.toNat ++ rest, i, line, j⟩ =
        ⟨rest, i + width, line, j + width⟩ := by
    simpa using Cursor.skip_inLine onLine rest i line j
  simp only [escape, unnamed, wide, taken, digits, Hex.length_fixed, Hex.number_fixed .upper room,
    charOfCode_toNat, Cursor.step_inLine within, skipped]
  rfl

theorem escape_numericEscape (c : Char) (rest : List Char) (index line column : Nat) :
    escape ⟨numericEscape c.toNat ++ rest, index, line, column⟩ =
      .ok ([c], ⟨rest, index + (numericEscape c.toNat).length, line,
        column + (numericEscape c.toNat).length⟩) := by
  have valid : c.toNat < 0xD800 ∨ 0xDFFF < c.toNat ∧ c.toNat < 0x110000 := c.valid
  unfold numericEscape
  split_ifs with small medium
  · rw [List.cons_append, escape_coded rfl rfl rfl small]
    simp [Nat.add_assoc, Nat.add_comm]
  · rw [List.cons_append, escape_coded rfl rfl rfl medium]
    simp [Nat.add_assoc, Nat.add_comm]
  · rw [List.cons_append, escape_coded rfl rfl rfl (show c.toNat < 4294967296 by omega)]
    simp [Nat.add_assoc, Nat.add_comm]

theorem writeChar_ne_nil (c : Char) : writeChar c ≠ [] := by
  unfold writeChar
  split
  · simp
  · split_ifs <;> simp

theorem length_le_flatMap_writeChar (cs : List Char) :
    cs.length ≤ (cs.flatMap writeChar).length := by
  induction cs with
  | nil => exact Nat.le_refl _
  | cons c cs ih =>
    have one : 0 < (writeChar c).length := List.length_pos_iff.mpr (writeChar_ne_nil c)
    rw [List.flatMap_cons, List.length_append, List.length_cons]
    omega

/-- With more than `m` steps, the text from a place up to its closing quote is read. -/
def ReadsTo (m : Nat) (c : Cursor) (r : List Char × Cursor) : Prop :=
  ∀ fuel, m < fuel → quotedText fuel .double c = .ok r

namespace ReadsTo

variable {m : Nat} {rest text : List Char} {after : Cursor} {index line column : Nat}

theorem closing (rest : List Char) (index line column : Nat) :
    ReadsTo 0 ⟨'"' :: rest, index, line, column⟩ ([], ⟨'"' :: rest, index, line, column⟩) := by
  rintro (_ | fuel) enough
  · cases enough
  · rfl

theorem escaped {c : Char} {next : Cursor}
    (taken : escape ⟨rest, index + 1, line, column + 1⟩ = .ok ([c], next))
    (reads : ReadsTo m next (text, after)) :
    ReadsTo (m + 1) ⟨'\\' :: rest, index, line, column⟩ (c :: text, after) := by
  rintro (_ | fuel) enough
  · cases enough
  · have backslash : Cursor.step ⟨'\\' :: rest, index, line, column⟩ =
        ⟨rest, index + 1, line, column + 1⟩ := rfl
    simp only [quotedText, backslash, taken, reads fuel (by omega)]
    rfl

theorem solid {c : Char} (noQuote : c ≠ '"') (noBackslash : c ≠ '\\')
    (solid : isSolid c = true) (within : isInLine c = true)
    (reads : ReadsTo m ⟨rest, index + 1, line, column + 1⟩ (text, after)) :
    ReadsTo (m + 1) ⟨c :: rest, index, line, column⟩ (c :: text, after) := by
  rintro (_ | fuel) enough
  · cases enough
  · simp [quotedText, Quote.char, noQuote, noBackslash, endsWord_of_isSolid solid,
      Cursor.step_inLine within, reads fuel (by omega), Except.map]

theorem char {c : Char} (noSpace : c ≠ ' ')
    (reads : ReadsTo m ⟨rest, index + (writeChar c).length, line,
      column + (writeChar c).length⟩ (text, after)) :
    ReadsTo (m + 1) ⟨writeChar c ++ rest, index, line, column⟩ (c :: text, after) := by
  have place (i n : Nat) : i + 1 + n = i + (n + 1) := by omega
  unfold writeChar at reads ⊢
  split at reads
  · next letter short =>
    refine escaped (escape_named (namedEscape?_of_shortEscape? short) ?_ rest _ _ _) ?_
    · exact isInLine_of_isPlainAscii (isPlainAscii_of_shortEscape? short)
    · exact reads
  · next long =>
    split_ifs at reads ⊢ with plain
    · have asIs : writeChar c = [c] := by rw [writeChar, long, if_pos plain]
      have apart (other : Char) (short : shortEscape? other ≠ none) : c ≠ other :=
        fun same => short (same ▸ long)
      exact solid (apart _ (by decide)) (apart _ (by decide))
        (isSolid_of_mem_writeChar noSpace (by rw [asIs]; rfl))
        (isInLine_of_isPlainAscii plain) reads
    · refine escaped (escape_numericEscape c rest _ _ _) ?_
      simpa only [place, List.length_cons] using reads

theorem spaces {ch : Char} (k : Nat) (solid : isSolid ch = true)
    (reads : ReadsTo m ⟨ch :: rest, index + k, line, column + k⟩ (text, after)) :
    ReadsTo (m + k) ⟨List.replicate k ' ' ++ ch :: rest, index, line, column⟩
      (List.replicate k ' ' ++ text, after) := by
  -- One step takes the whole run, so the bound counts more steps than there are.
  rcases k with _ | k
  · simpa using reads
  · rintro (_ | fuel) enough
    · cases enough
    · obtain ⟨noBlank, noBreak⟩ := isSolid_iff.mp solid
      have every (p : Char → Bool) (space : p ' ' = true) :
          ∀ c ∈ List.replicate (k + 1) ' ', p c = true := by
        intro c mem
        rwa [List.eq_of_mem_replicate mem]
      have stops : ∀ c ∈ (ch :: rest).head?, isBlank c = false := by
        rintro c ⟨⟩
        exact noBlank
      have blanks : Cursor.run isBlank
          ⟨List.replicate (k + 1) ' ' ++ ch :: rest, index, line, column⟩ =
            (List.replicate (k + 1) ' ',
              ⟨ch :: rest, index + (k + 1), line, column + (k + 1)⟩) := by
        have run := Cursor.run_inLine (every isInLine rfl) (every isBlank rfl) stops
        simpa using run index line column
      have gap : quotedGap ⟨List.replicate (k + 1) ' ' ++ ch :: rest, index, line, column⟩ =
          .ok (List.replicate (k + 1) ' ',
            ⟨ch :: rest, index + (k + 1), line, column + (k + 1)⟩) := by
        have stays : Cursor.lineBreak? ⟨ch :: rest, index + (k + 1), line, column + (k + 1)⟩ =
            none := Cursor.lineBreak?_of_head (by simpa using noBreak)
        simp only [quotedGap, blanks, stays]
      rw [List.replicate_succ, List.cons_append] at gap ⊢
      simp only [quotedText, gap, reads fuel (by omega)]
      rfl

/-- The induction is on the text; the spaces met so far wait for the character that ends
their run. -/
theorem written (cs rest : List Char) (k index line column : Nat) :
    ReadsTo (k + cs.length)
      ⟨List.replicate k ' ' ++ (cs.flatMap writeChar ++ '"' :: rest), index, line, column⟩
      (List.replicate k ' ' ++ cs, ⟨'"' :: rest, index + (k + (cs.flatMap writeChar).length), line,
        column + (k + (cs.flatMap writeChar).length)⟩) := by
  induction cs generalizing k index column with
  | nil => simpa using spaces k rfl (closing rest (index + k) line (column + k))
  | cons c cs ih =>
    by_cases solid : c = ' '
    · subst solid
      have moved (tail : List Char) : List.replicate k ' ' ++ ' ' :: tail =
          List.replicate (k + 1) ' ' ++ tail := by
        rw [List.replicate_succ', List.append_assoc, List.singleton_append]
      have asIs : writeChar ' ' = [' '] := rfl
      have later := ih (k + 1) index column
      simpa [asIs, moved, Nat.add_assoc, Nat.add_comm, Nat.add_left_comm] using later
    · have tail := ih 0 (index + k + (writeChar c).length) (column + k + (writeChar c).length)
      rw [List.replicate_zero, List.nil_append, List.nil_append] at tail
      have others := char solid tail
      obtain ⟨ch, more, starts⟩ := List.exists_cons_of_ne_nil (writeChar_ne_nil c)
      have first : isSolid ch = true := isSolid_of_mem_writeChar solid (by rw [starts]; rfl)
      rw [starts, List.cons_append] at others
      have whole := spaces k first others
      simpa [starts, Nat.add_assoc, Nat.add_comm, Nat.add_left_comm] using whole

end ReadsTo

/-- A text written in double quotes is read back whole, whatever follows the quotes. -/
theorem quotedScalar_writeQuoted (cs rest : List Char) (index line column : Nat) :
    quotedScalar .double ⟨writeQuoted cs ++ rest, index, line, column⟩ =
      .ok (cs, ⟨rest, index + (writeQuoted cs).length, line,
        column + (writeQuoted cs).length⟩) := by
  have quote : isInLine '"' = true := rfl
  have opening : Cursor.step ⟨writeQuoted cs ++ rest, index, line, column⟩ =
      ⟨cs.flatMap writeChar ++ '"' :: rest, index + 1, line, column + 1⟩ := by
    simp [writeQuoted, Cursor.step_inLine quote]
  have short := length_le_flatMap_writeChar cs
  have reads := ReadsTo.written cs rest 0 (index + 1) line (column + 1)
  have read := reads ((writeQuoted cs ++ rest).length + 1)
    (by simp [writeQuoted, -List.length_flatMap]; omega)
  simp only [List.replicate_zero, List.nil_append] at read
  rw [quotedScalar, opening, read]
  simp [Except.map, Cursor.step_inLine quote, writeQuoted]
  omega

end ModuleStubs.Yaml
