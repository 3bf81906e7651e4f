import ModuleStubs.Proofs.Yaml.Words
import ModuleStubs.Yaml.Lexer

/-! Texts of lines as a mapping of the outermost level writes them: a key with a value in the
same line or none, and items below a key. The tokens of such a text are the tokens of its
lines, one line after another. -/

namespace ModuleStubs.Yaml

/-- A key is found again if its colon is near enough. -/
structure Key extends Word where
  short : chars.length ≤ 1024

def isKeyName (name : List Char) : Bool :=
  name.head?.any Char.isAlphanum && name.all isWordPart && decide (name.length ≤ 1024)

theorem isKeyName_iff {name : List Char} : isKeyName name = true ↔
    (name.head?.any Char.isAlphanum = true ∧ name.all isWordPart = true) ∧ name.length ≤ 1024 := by
  simp only [isKeyName, Bool.and_eq_true, decide_eq_true_eq]

def keyOf (name : String) (sound : isKeyName name.toList = true) : Key where
  chars := name.toList
  begins := (isKeyName_iff.mp sound).1.1
  parts := (isKeyName_iff.mp sound).1.2
  short := (isKeyName_iff.mp sound).2

inductive LineValue where
  | absent
  | plain (negative : Bool) (word : Word)
  | quoted (text : List Char)

inductive Line where
  | entry (key : Key) (value : LineValue)
  | item (text : List Char)

def signedWord (negative : Bool) (w : Word) : List Char :=
  if negative then '-' :: w.chars else w.chars

def LineValue.write : LineValue → List Char
  | .absent => []
  | .plain negative word => ' ' :: signedWord negative word
  | .quoted text => ' ' :: writeQuoted text

def LineValue.tokens : LineValue → List Token
  | .absent => []
  | .plain negative word => [.scalar (signedWord negative word) true]
  | .quoted text => [.scalar text false]

def Line.write : Line → List Char
  | .entry key value => key.chars ++ ':' :: value.write
  | .item text => '-' :: ' ' :: writeQuoted text

def Line.tokens : Line → List Token
  | .entry key value => .key :: .scalar key.chars true :: .value :: value.tokens
  | .item text => [.blockEntry, .scalar text false]

theorem signedWord_parts (negative : Bool) (w : Word) :
    (signedWord negative w).all isWordPart = true := by
  cases negative with
  | false => exact w.parts
  | true => simp [signedWord, isWordPart, ← w.parts]

theorem isPlainAscii_of_mem_write {line : Line} {ch : Char} (mem : ch ∈ line.write) :
    isPlainAscii ch = true := by
  have word {chars : List Char} (parts : chars.all isWordPart = true) (mem : ch ∈ chars) :
      isPlainAscii ch = true := isPlainAscii_of_isWordPart (List.all_eq_true.mp parts ch mem)
  cases line with
  | entry key value =>
    rcases List.mem_append.mp mem with inKey | mem
    · exact word key.parts inKey
    rcases List.mem_cons.mp mem with rfl | mem
    · rfl
    cases value with
    | absent => cases mem
    | plain negative w =>
      rcases List.mem_cons.mp mem with rfl | mem
      · rfl
      · exact word (signedWord_parts negative w) mem
    | quoted text =>
      rcases List.mem_cons.mp mem with rfl | mem
      · rfl
      · exact isPlainAscii_of_mem_writeQuoted mem
  | item text =>
    rcases List.mem_cons.mp mem with rfl | mem
    · rfl
    rcases List.mem_cons.mp mem with rfl | mem
    · rfl
    · exact isPlainAscii_of_mem_writeQuoted mem

def textOf (lines : List Line) : List Char := lines.flatMap fun line => line.write ++ ['\n']

theorem textOf_cons (line : Line) (lines : List Line) :
    textOf (line :: lines) = line.write ++ '\n' :: textOf lines := by
  simp [textOf]

theorem textOf_append (lines more : List Line) :
    textOf (lines ++ more) = textOf lines ++ textOf more := List.flatMap_append

theorem beginsLine_textOf (lines : List Line) : beginsLine (textOf lines) = true := by
  rcases lines with _ | ⟨key | text, lines⟩
  · rfl
  · obtain ⟨ch, more, chars, sign⟩ := key.exists_cons
    simp [textOf, Line.write, chars, beginsLine, sign]
  · simp [textOf, Line.write, beginsLine]

namespace Lexer

/-- So many tokens after the first place the lexer is at the second one. -/
def Leads (n : Nat) (l after : Lexer) : Prop := ∀ fuel, l.run (fuel + n) = after.run fuel

theorem Leads.refl (l : Lexer) : Leads 0 l l := fun _ => rfl

theorem Leads.trans {m n : Nat} {l middle after : Lexer} (first : Leads m l middle)
    (second : Leads n middle after) : Leads (m + n) l after := by
  intro fuel
  rw [Nat.add_comm m n, ← Nat.add_assoc, first, second]

theorem Leads.token {l next after : Lexer} {ch : Char} (reached : l.advance? = some next)
    (begins : next.cursor.rest.head? = some ch) (read : next.token ch = .ok after) :
    Leads 1 l after := by
  obtain ⟨rest, starts⟩ := List.head?_eq_some_iff.mp begins
  intro fuel
  simp only [run, reached, starts, read]

def atEdge (opened : Bool) (c : Cursor) (ts : List Token) (allowed : Bool)
    (key : Option PossibleKey) : Lexer :=
  ⟨c, ts, if opened then 0 else -1, if opened then [-1] else [], allowed, [key]⟩

section

variable (opened : Bool) (ts : List Token) (allowed : Bool) (key : Option PossibleKey)

theorem unwindTo_atEdge (c : Cursor) (column : Nat) :
    (atEdge opened c ts allowed key).unwindTo column = atEdge opened c ts allowed key := by
  cases opened <;> simp [unwindTo, inFlow, atEdge, unwind]

end

def BeginsToken (rest : List Char) : Prop := ∀ ch ∈ rest.head?, isSolid ch = true ∧ ch ≠ '#'

theorem beginsToken_cons {ch : Char} (solid : isSolid ch = true) (noComment : ch ≠ '#')
    (rest : List Char) : BeginsToken (ch :: rest) := by
  rintro _ ⟨⟩
  exact ⟨solid, noComment⟩

theorem beginsToken_of_beginsLine {rest : List Char} (begins : beginsLine rest = true) :
    BeginsToken rest := fun _ first =>
  have part := head_of_beginsLine begins first
  ⟨isSolid_of_isWordPart part, ne_of_isWordPart part '#' rfl⟩

theorem skipSpaces_here {c : Cursor} (begins : BeginsToken c.rest) : c.skipSpaces = c := by
  refine Cursor.skipSpaces_of_head fun ch first => ?_
  rintro rfl
  cases (begins _ first).1

theorem skipSpaces_one {rest : List Char} (begins : BeginsToken rest) (index line column : Nat) :
    Cursor.skipSpaces ⟨' ' :: rest, index, line, column⟩ =
      ⟨rest, index + 1, line, column + 1⟩ := by
  have stops : ∀ ch ∈ rest.head?, decide (ch = ' ') = false := by
    intro ch first
    refine decide_eq_false ?_
    rintro rfl
    cases (begins _ first).1
  have onLine : ∀ ch ∈ [' '], isInLine ch = true := List.forall_mem_singleton.mpr rfl
  have space : ∀ ch ∈ [' '], decide (ch = ' ') = true := List.forall_mem_singleton.mpr rfl
  exact congrArg Prod.snd (Cursor.run_inLine onLine space stops index line column)

theorem skipToToken_on_line {l : Lexer} {c : Cursor} (skipped : l.cursor.skipSpaces = c)
    (begins : BeginsToken c.rest) (fuel : Nat) : l.skipToToken (fuel + 1) = l.moveTo c := by
  have noComment : c.skipComment = c := by
    have unseen : c.sees '#' = false := by
      rw [Cursor.sees, Cursor.peek]
      exact decide_eq_false fun first => (begins '#' first).2 rfl
    simp [Cursor.skipComment, unseen]
  have noBreak : c.lineBreak? = none := by
    exact Cursor.lineBreak?_of_head fun ch first => (isSolid_iff.mp (begins ch first).1).2
  simp only [skipToToken, skipped, noComment, noBreak]

section

variable {rest : List Char} (begins : BeginsToken rest) (opened : Bool) (ts : List Token)
  (allowed : Bool) {key : Option PossibleKey} {index line : Nat} (column : Nat)

def IsFresh (line index : Nat) (key : Option PossibleKey) : Prop :=
  ∀ k ∈ key, k.line = line ∧ index ≤ k.index + 1024

theorem dropStale?_fresh (fresh : IsFresh line index key) (rest : List Char) (column : Nat) :
    dropStale? ⟨rest, index, line, column⟩ [key] = some [key] := by
  cases key with
  | none => rfl
  | some k =>
    obtain ⟨same, near⟩ := fresh k rfl
    have notStale : isStale ⟨rest, index, line, column⟩ k = false := by
      simp only [isStale, same, ne_eq, not_true_eq_false, decide_false, Bool.false_or,
        decide_eq_false_iff_not]
      omega
    simp [dropStale?, notStale]

theorem advance?_atEdge {l : Lexer} {c : Cursor} {after : Option PossibleKey}
    (skipped : l.skipToToken (l.cursor.rest.length + 1) = atEdge opened c ts allowed key)
    (kept : dropStale? c [key] = some [after]) :
    l.advance? = some (atEdge opened c ts allowed after) := by
  rw [advance?, skipped]
  change (dropStale? c [key] >>= fun keys =>
    some (unwindTo c.column { atEdge opened c ts allowed key with keys })) = _
  rw [kept]
  exact congrArg some (unwindTo_atEdge opened ts allowed after c c.column)

include begins

theorem advance?_here (fresh : IsFresh line index key) :
    (atEdge opened ⟨rest, index, line, column⟩ ts allowed key).advance? =
      some (atEdge opened ⟨rest, index, line, column⟩ ts allowed key) := by
  have here := skipSpaces_here (c := ⟨rest, index, line, column⟩) begins
  exact advance?_atEdge opened ts allowed (skipToToken_on_line here begins rest.length)
    (dropStale?_fresh fresh rest column)

theorem advance?_space (fresh : IsFresh line (index + 1) key) :
    (atEdge opened ⟨' ' :: rest, index, line, column⟩ ts allowed key).advance? =
      some (atEdge opened ⟨rest, index + 1, line, column + 1⟩ ts allowed key) := by
  have one := skipSpaces_one begins index line column
  exact advance?_atEdge opened ts allowed (skipToToken_on_line one begins (rest.length + 1))
    (dropStale?_fresh fresh rest (column + 1))

/-- Behind a line end a key may begin, and what was on the line cannot become one. -/
theorem advance?_newline (free : ∀ k ∈ key, k.line ≤ line ∧ k.required = false) :
    (atEdge opened ⟨'\n' :: rest, index, line, column⟩ ts allowed key).advance? =
      some (atEdge opened ⟨rest, index + 1, line + 1, 0⟩ ts true none) := by
  have first (fuel : Nat) :
      skipToToken (fuel + 1) (atEdge opened ⟨'\n' :: rest, index, line, column⟩ ts allowed key) =
        skipToToken fuel (atEdge opened ⟨rest, index + 1, line + 1, 0⟩ ts true key) := by
    cases allowed <;> rfl
  have here := skipSpaces_here (c := ⟨rest, index + 1, line + 1, 0⟩) begins
  have skipped : skipToToken (('\n' :: rest).length + 1)
      (atEdge opened ⟨'\n' :: rest, index, line, column⟩ ts allowed key) =
        atEdge opened ⟨rest, index + 1, line + 1, 0⟩ ts true key := by
    rw [first, List.length_cons, skipToToken_on_line here begins rest.length]
    rfl
  have kept : dropStale? ⟨rest, index + 1, line + 1, 0⟩ [key] = some [none] := by
    cases key with
    | none => rfl
    | some k =>
      obtain ⟨before, optional⟩ := free k rfl
      have stale : isStale ⟨rest, index + 1, line + 1, 0⟩ k = true := by
        simp only [isStale, ne_eq, Bool.or_eq_true, decide_eq_true_eq]
        omega
      simp [dropStale?, stale, optional]
  exact advance?_atEdge opened ts true skipped kept

end

theorem token_of_plain {l : Lexer} {ch : Char} {rest : List Char}
    (here : l.cursor.rest = ch :: rest) (sign : ch.isAlphanum = true) :
    l.token ch = orMalformed l.plain? := by
  have apart := ne_of_isAlphanum sign
  have solid := endsWord_of_isSolid (isSolid_of_isAlphanum sign)
  have noMark (mark : Char) (outside : mark.isAlphanum = false) :
      l.cursor.seesMarker mark = false := by
    simp [Cursor.seesMarker, here, apart mark outside]
  have starts : startsPlain l.inFlow l.cursor = true := by
    simp [startsPlain, here, solid, apart]
  simp [token, noMark, starts, apart]

theorem token_of_minus {l : Lexer} {ch : Char} {rest : List Char}
    (here : l.cursor.rest = '-' :: ch :: rest) (sign : ch.isAlphanum = true)
    (deep : l.cursor.column ≠ 0) : l.token '-' = orMalformed l.plain? := by
  have solid := endsWord_of_isSolid (isSolid_of_isAlphanum sign)
  have next : l.cursor.peekAt 1 = some ch := by simp [Cursor.peekAt, here]
  have starts : startsPlain l.inFlow l.cursor = true := by
    simp [startsPlain, here, solid]
  simp [token, starts, next, solid, deep]

section

variable (opened : Bool) (ts : List Token) (index line column : Nat) (rest : List Char)

theorem saveKey?_atEdge (c : Cursor) :
    (atEdge opened c ts true none).saveKey? =
      some (atEdge opened c ts true
        (some ⟨ts.length, opened && c.column == 0, c.index, c.line, c.column⟩)) := by
  have required : ((if opened then 0 else -1) == (c.column : Int)) = (opened && c.column == 0) := by
    rw [Bool.eq_iff_iff]
    cases opened with
    | false => simp
    | true =>
      simp only [if_true, Bool.true_and, beq_iff_eq]
      omega
  simp [saveKey?, dropKey?, inFlow, atEdge, required]

section

variable {opened ts} {c : Cursor} {allowed : Bool} {key saved : Option PossibleKey}
  (saves : (atEdge opened c ts allowed key).saveKey? = some (atEdge opened c ts allowed saved))

include saves

theorem plain?_atEdge {s : PlainScalar}
    (read : plainScalar (c.rest.length + 1) false ((if opened then 0 else -1) + 1) c = s) :
    (atEdge opened c ts allowed key).plain? =
      some (atEdge opened s.cursor (.scalar s.text true :: ts) s.brokeLine saved) := by
  rw [plain?, saves, ← read]
  rfl

theorem quoted_atEdge {text : List Char} {after : Cursor}
    (read : quotedScalar .double c = .ok (text, after)) :
    (atEdge opened c ts allowed key).quoted .double =
      .ok (atEdge opened after (.scalar text false :: ts) false saved) := by
  rw [quoted, saves]
  change (quotedScalar .double c).map _ = _
  rw [read]
  rfl

end

def opening : Bool → List Token
  | true => []
  | false => [.blockMappingStart]

theorem token_key (key : Key) (ends : endsWord rest.head? = true) :
    ∃ ch more, key.chars = ch :: more ∧
      (atEdge opened ⟨key.chars ++ ':' :: rest, index, line, 0⟩ ts true none).token ch =
        .ok (atEdge opened ⟨':' :: rest, index + key.chars.length, line, key.chars.length⟩
          (.scalar key.chars true :: ts) false
          (some ⟨ts.length, opened, index, line, 0⟩)) := by
  obtain ⟨ch, more, chars, sign⟩ := key.exists_cons
  have plain := token_of_plain
    (l := atEdge opened ⟨key.chars ++ ':' :: rest, index, line, 0⟩ ts true none)
    (show key.chars ++ ':' :: rest = ch :: (more ++ ':' :: rest) by rw [chars]; rfl) sign
  have scalar := plainScalar_before_colon key.parts key.ne_nil ends
    (key.chars ++ ':' :: rest).length ((if opened then 0 else -1) + 1) index line 0
  refine ⟨ch, more, chars, ?_⟩
  rw [plain, plain?_atEdge (saveKey?_atEdge opened ts _) scalar]
  simp [orMalformed]

theorem valueMark?_atEdge (c : Cursor) (allowed : Bool) (key : PossibleKey) :
    (atEdge opened c ts allowed (some key)).valueMark? =
      let l := (insertKey key (atEdge opened c ts allowed none)).allowKey false
      some ((l.moveTo l.cursor.step).push .value) := rfl

theorem insertKey_atEdge (t : Token) (c : Cursor) (required : Bool) :
    insertKey ⟨ts.length, required, index, line, 0⟩ (atEdge opened c (t :: ts) false none) =
      atEdge true c (t :: .key :: (opening opened ++ ts)) false none := by
  cases opened with
  | false => simp [insertKey, atEdge, inFlow, deepens, setIndent, opening]
  | true => simp [insertKey, atEdge, inFlow, deepens, opening]

theorem token_value (t : Token) (ends : endsWord rest.head? = true) (required : Bool)
    (start column : Nat) :
    (atEdge opened ⟨':' :: rest, index, line, column⟩ (t :: ts) false
      (some ⟨ts.length, required, start, line, 0⟩)).token ':' =
      .ok (atEdge true ⟨rest, index + 1, line, column + 1⟩
        (.value :: t :: .key :: (opening opened ++ ts)) false none) := by
  have next : Cursor.peekAt ⟨':' :: rest, index, line, column⟩ 1 = rest.head? := by
    cases rest <;> rfl
  have inserted := insertKey_atEdge opened ts start line t ⟨':' :: rest, index, line, column⟩
    required
  have value : (atEdge opened ⟨':' :: rest, index, line, column⟩ (t :: ts) false
      (some ⟨ts.length, required, start, line, 0⟩)).valueMark? =
        some (atEdge true ⟨rest, index + 1, line, column + 1⟩
          (.value :: t :: .key :: (opening opened ++ ts)) false none) := by
    rw [valueMark?_atEdge, inserted]
    rfl
  have noMark (mark : Char) (other : ':' ≠ mark) :=
    Cursor.seesMarker_of_ne other rest index line column
  have here : (atEdge opened ⟨':' :: rest, index, line, column⟩ (t :: ts) false
      (some ⟨ts.length, required, start, line, 0⟩)).cursor =
        ⟨':' :: rest, index, line, column⟩ := rfl
  simp [token, here, next, ends, noMark, value, orMalformed]

theorem token_quoted {opened ts} {text rest : List Char} {index line column : Nat} {allowed : Bool}
    {key saved : Option PossibleKey}
    (saves :
      (atEdge opened ⟨writeQuoted text ++ rest, index, line, column⟩ ts allowed key).saveKey? =
        some (atEdge opened ⟨writeQuoted text ++ rest, index, line, column⟩ ts allowed saved)) :
    (atEdge opened ⟨writeQuoted text ++ rest, index, line, column⟩ ts allowed key).token '"' =
      .ok (atEdge opened ⟨rest, index + (writeQuoted text).length, line,
        column + (writeQuoted text).length⟩ (.scalar text false :: ts) false saved) := by
  have scalar := quoted_atEdge saves (quotedScalar_writeQuoted text rest index line column)
  have noMark (mark : Char) (other : '"' ≠ mark) :
      Cursor.seesMarker mark ⟨writeQuoted text ++ rest, index, line, column⟩ = false :=
    Cursor.seesMarker_of_ne other _ index line column
  have here :
      (atEdge opened ⟨writeQuoted text ++ rest, index, line, column⟩ ts allowed key).cursor =
        ⟨writeQuoted text ++ rest, index, line, column⟩ := rfl
  simp [token, here, noMark, scalar]

theorem token_signedWord (negative : Bool) (w : Word) {rest : List Char}
    (begins : beginsLine rest = true) {column : Nat} (deep : column ≠ 0) (ts : List Token)
    (index line : Nat) :
    ∃ ch more, signedWord negative w = ch :: more ∧ isWordPart ch = true ∧
      (atEdge true ⟨signedWord negative w ++ '\n' :: rest, index, line, column⟩ ts false
        none).token ch =
        .ok (atEdge true ⟨rest, index + (signedWord negative w).length + 1, line + 1, 0⟩
          (.scalar (signedWord negative w) true :: ts) true none) := by
  obtain ⟨ch, more, chars, sign⟩ := w.exists_cons
  have filled : signedWord negative w ≠ [] := by
    cases negative with
    | false => exact w.ne_nil
    | true => exact List.cons_ne_nil _ _
  have scalar := plainScalar_before_newline (signedWord_parts negative w) filled begins
    (signedWord negative w ++ '\n' :: rest).length (show (0 : Int) < 0 + 1 by decide)
    index line column
  have unsaved : (atEdge true ⟨signedWord negative w ++ '\n' :: rest, index, line, column⟩ ts false
      none).saveKey? = some (atEdge true
        ⟨signedWord negative w ++ '\n' :: rest, index, line, column⟩ ts false none) := rfl
  have read := plain?_atEdge unsaved scalar
  cases negative with
  | false =>
    refine ⟨ch, more, chars, by simp [isWordPart, sign], ?_⟩
    have here : signedWord false w ++ '\n' :: rest = ch :: (more ++ '\n' :: rest) := by
      simp [signedWord, chars]
    refine Eq.trans (token_of_plain here sign) ?_
    rw [read]
    rfl
  | true =>
    refine ⟨'-', w.chars, rfl, rfl, ?_⟩
    have here : signedWord true w ++ '\n' :: rest = '-' :: ch :: (more ++ '\n' :: rest) := by
      simp [signedWord, chars]
    refine Eq.trans (token_of_minus here sign deep) ?_
    rw [read]
    rfl

end

theorem token_item (ts : List Token) (index line : Nat) (rest : List Char) :
    (atEdge true ⟨'-' :: ' ' :: rest, index, line, 0⟩ ts true none).token '-' =
      .ok (atEdge true ⟨' ' :: rest, index + 1, line, 1⟩ (.blockEntry :: ts) true none) := by
  have noMark (mark : Char) :
      Cursor.seesMarker mark ⟨'-' :: ' ' :: rest, index, line, 0⟩ = false := by
    by_cases dash : mark = '-'
    · simp [Cursor.seesMarker, dash]
    · exact Cursor.seesMarker_of_ne (Ne.symm dash) _ index line 0
  have here : (atEdge true ⟨'-' :: ' ' :: rest, index, line, 0⟩ ts true none).cursor =
      ⟨'-' :: ' ' :: rest, index, line, 0⟩ := rfl
  have entry : blockEntry? (atEdge true ⟨'-' :: ' ' :: rest, index, line, 0⟩ ts true none) =
      some (atEdge true ⟨' ' :: rest, index + 1, line, 1⟩ (.blockEntry :: ts) true none) := rfl
  simp [token, here, noMark, entry, orMalformed, Cursor.peekAt, endsWord, isBlank]

def AtLine (l : Lexer) (opened : Bool) (rest : List Char) (ts : List Token) : Prop :=
  ∃ index line, l.advance? = some (atEdge opened ⟨rest, index, line, 0⟩ ts true none)

section

variable {rest : List Char} (begins : beginsLine rest = true) (opened : Bool) (ts : List Token)
  (index line column : Nat)

include begins

theorem atLine_here : AtLine (atEdge opened ⟨rest, index, line, 0⟩ ts true none) opened rest ts :=
  ⟨index, line, advance?_here (beginsToken_of_beginsLine begins) opened ts true 0 nofun⟩

theorem atLine_newline (allowed : Bool) {key : Option PossibleKey}
    (free : ∀ k ∈ key, k.line ≤ line ∧ k.required = false) :
    AtLine (atEdge opened ⟨'\n' :: rest, index, line, column⟩ ts allowed key) opened rest ts :=
  ⟨index + 1, line + 1, advance?_newline (beginsToken_of_beginsLine begins) opened ts allowed column
    free⟩

end

/-- Some part of a text takes the lexer to the next line and gives these tokens, in no more
steps than it has characters. -/
def Consumes (part : List Char) (made : List Token) (l : Lexer) (rest : List Char)
    (ts : List Token) : Prop :=
  ∃ n after, n ≤ part.length ∧ Leads n l after ∧ AtLine after true rest (made.reverse ++ ts)

theorem consumes_value (value : LineValue) {rest : List Char} (begins : beginsLine rest = true)
    (ts : List Token) (index line column : Nat) :
    Consumes value.write value.tokens
      (atEdge true ⟨value.write ++ '\n' :: rest, index, line, column⟩ ts false none) rest ts := by
  have fresh : IsFresh line (index + 1) none := nofun
  cases value with
  | absent =>
    exact ⟨0, _, Nat.zero_le _, Leads.refl _,
      atLine_newline begins true ts index line column false nofun⟩
  | quoted text =>
    have solid : BeginsToken (writeQuoted text ++ '\n' :: rest) :=
      beginsToken_cons rfl (by decide) _
    have reached := advance?_space solid true ts false column fresh
    have unsaved : (atEdge true ⟨writeQuoted text ++ '\n' :: rest, index + 1, line, column + 1⟩ ts
        false none).saveKey? = some (atEdge true
          ⟨writeQuoted text ++ '\n' :: rest, index + 1, line, column + 1⟩ ts false none) := rfl
    exact ⟨1, _, by simp [LineValue.write], Leads.token reached rfl (token_quoted unsaved),
      atLine_newline begins true _ _ _ _ false nofun⟩
  | plain negative word =>
    obtain ⟨ch, more, chars, part, read⟩ := token_signedWord negative word begins
      (Nat.succ_ne_zero column) ts (index + 1) line
    have solid : BeginsToken (signedWord negative word ++ '\n' :: rest) := by
      rw [chars]
      exact beginsToken_cons (isSolid_of_isWordPart part) (ne_of_isWordPart part '#' rfl) _
    have reached := advance?_space solid true ts false column fresh
    have first : (signedWord negative word ++ '\n' :: rest).head? = some ch := by
      rw [chars]
      rfl
    exact ⟨1, _, by simp [LineValue.write], Leads.token reached first read, atLine_here begins ..⟩

theorem consumes_entry (key : Key) (value : LineValue) {rest : List Char}
    (begins : beginsLine rest = true) {opened : Bool} {ts : List Token} {l : Lexer}
    (start : AtLine l opened ((Line.entry key value).write ++ '\n' :: rest) ts) :
    Consumes (Line.entry key value).write (Line.entry key value).tokens l rest
      (opening opened ++ ts) := by
  obtain ⟨index, line, reached⟩ := start
  have ends : endsWord (value.write ++ '\n' :: rest).head? = true := by cases value <;> rfl
  obtain ⟨ch, more, chars, read⟩ := token_key opened ts index line (value.write ++ '\n' :: rest)
    key ends
  have split : (Line.entry key value).write ++ '\n' :: rest =
      key.chars ++ ':' :: (value.write ++ '\n' :: rest) := by simp [Line.write]
  rw [split] at reached
  have first : (key.chars ++ ':' :: (value.write ++ '\n' :: rest)).head? = some ch := by
    rw [chars]
    rfl
  -- The token of the key is only a scalar until the colon makes it a key.
  have toColon := Leads.token reached first read
  have fresh : IsFresh line (index + key.chars.length)
      (some ⟨ts.length, opened, index, line, 0⟩) := by
    rintro _ ⟨⟩
    exact ⟨rfl, Nat.add_le_add_left key.short index⟩
  have solid : BeginsToken (':' :: (value.write ++ '\n' :: rest)) :=
    beginsToken_cons rfl (by decide) _
  have colon := advance?_here solid opened (.scalar key.chars true :: ts) false key.chars.length
    fresh
  have toValue := Leads.token colon rfl (token_value opened ts _ line _ _ ends _ index _)
  obtain ⟨n, after, few, toNext, atLine⟩ := consumes_value value begins
    (.value :: .scalar key.chars true :: .key :: (opening opened ++ ts))
    (index + key.chars.length + 1) line (key.chars.length + 1)
  refine ⟨1 + 1 + n, after, ?_, (toColon.trans toValue).trans toNext, ?_⟩
  · have filled : 0 < key.chars.length := List.length_pos_iff.mpr key.ne_nil
    simp only [Line.write, List.length_append, List.length_cons]
    omega
  · simpa [Line.tokens] using atLine

theorem consumes_item (text : List Char) {rest : List Char}
    (begins : beginsLine rest = true) {ts : List Token} {l : Lexer}
    (start : AtLine l true ((Line.item text).write ++ '\n' :: rest) ts) :
    Consumes (Line.item text).write (Line.item text).tokens l rest ts := by
  obtain ⟨index, line, reached⟩ := start
  have split : (Line.item text).write ++ '\n' :: rest =
      '-' :: ' ' :: (writeQuoted text ++ '\n' :: rest) := by simp [Line.write]
  rw [split] at reached
  have mark := token_item ts index line (writeQuoted text ++ '\n' :: rest)
  have toText := Leads.token reached rfl mark
  have fresh : IsFresh line (index + 1 + 1) none := nofun
  have solid : BeginsToken (writeQuoted text ++ '\n' :: rest) :=
    beginsToken_cons rfl (by decide) _
  have gap := advance?_space solid true (.blockEntry :: ts) true 1 fresh
  have read := token_quoted (saveKey?_atEdge true (.blockEntry :: ts)
    ⟨writeQuoted text ++ '\n' :: rest, index + 1 + 1, line, 1 + 1⟩)
  refine ⟨1 + 1, _, by simp [Line.write], toText.trans (Leads.token gap rfl read), ?_⟩
  exact atLine_newline begins true _ _ _ _ _ (by simp)

theorem consumes_line (line : Line) {rest : List Char} (begins : beginsLine rest = true)
    {ts : List Token} {l : Lexer} (start : AtLine l true (line.write ++ '\n' :: rest) ts) :
    Consumes line.write line.tokens l rest ts := by
  cases line with
  | entry key value => exact consumes_entry key value begins start
  | item text => exact consumes_item text begins start

theorem consumes_lines (lines : List Line) {ts : List Token} {l : Lexer}
    (start : AtLine l true (textOf lines) ts) :
    Consumes (textOf lines) (lines.flatMap Line.tokens) l [] ts := by
  induction lines generalizing l ts with
  | nil => exact ⟨0, l, Nat.zero_le _, Leads.refl l, start⟩
  | cons line lines ih =>
    rw [textOf_cons] at start
    obtain ⟨m, middle, fewer, first, between⟩ := consumes_line line (beginsLine_textOf lines) start
    obtain ⟨n, after, few, others, ends⟩ := ih between
    refine ⟨m + n, after, ?_, first.trans others, by simpa using ends⟩
    rw [textOf_cons, List.length_append, List.length_cons]
    omega

theorem finish_atEdge (c : Cursor) (ts : List Token) :
    (atEdge true c ts true none).finish = ts.reverse ++ [.blockEnd, .streamEnd] := by
  simp [finish, unwindTo, inFlow, atEdge, unwind, dropKey?, push]

end Lexer

/-- The tokens of a text whose first line has a key. -/
theorem tokens_textOf (key : Key) (value : LineValue) (lines : List Line) :
    tokens (textOf (.entry key value :: lines)) =
      .blockMappingStart :: ((Line.entry key value :: lines).flatMap Line.tokens ++
        [.blockEnd, .streamEnd]) := by
  have begins := beginsLine_textOf (.entry key value :: lines)
  have noMark : afterMark (Lexer.start (textOf (.entry key value :: lines))).cursor =
      (Lexer.start (textOf (.entry key value :: lines))).cursor := by
    refine if_neg fun marked => ?_
    have first : (textOf (.entry key value :: lines)).head? = some byteOrderMark :=
      of_decide_eq_true marked
    exact ne_of_isWordPart (head_of_beginsLine begins first) byteOrderMark rfl rfl
  have split : textOf (.entry key value :: lines) =
      (Line.entry key value).write ++ '\n' :: textOf lines := textOf_cons _ lines
  have start : (Lexer.start (textOf (.entry key value :: lines))).AtLine false
      ((Line.entry key value).write ++ '\n' :: textOf lines) [] := by
    rw [← split]
    exact Lexer.atLine_here begins false [] 0 0
  obtain ⟨m, middle, fewer, first, between⟩ :=
    Lexer.consumes_entry key value (beginsLine_textOf lines) start
  obtain ⟨n, after, few, others, index, line, ends⟩ := Lexer.consumes_lines lines between
  have room : ∃ fuel, (textOf (.entry key value :: lines)).length + 1 = fuel + 1 + (m + n) := by
    refine ⟨(textOf (.entry key value :: lines)).length - (m + n), ?_⟩
    rw [split, List.length_append, List.length_cons]
    omega
  obtain ⟨fuel, enough⟩ := room
  rw [tokens, noMark, enough]
  change (Lexer.start _).run (fuel + 1 + (m + n)) = _
  rw [first.trans others, Lexer.run, ends]
  change (Lexer.atEdge true _ _ true none).finish = _
  rw [Lexer.finish_atEdge]
  simp [Lexer.opening]

end ModuleStubs.Yaml
