import Mathlib.Data.List.Forall2
import ModuleStubs.Proofs.Structure.ReadNodes
import ModuleStubs.Proofs.Yaml.Fields
import ModuleStubs.Proofs.Yaml.WholeNumber
import ModuleStubs.Tool.Query

/-! The query as YAML text. Whatever the path and the arguments for the compiler hold, it stays
ASCII with one line for each key and argument, and loads as the mapping that was meant. -/

namespace ModuleStubs.Query

open Yaml Text

variable (settings : ToolSettings) (q : Query)

def kindWord : Word := ⟨kind, by decide +kernel, by decide +kernel⟩

def digitsWord (n : Nat) : Word where
  chars := digits n
  begins := by
    obtain ⟨c, ds, split, digit, -⟩ := digits_eq_cons n
    simp [split, isAlphanum_of_isDigit (digit c List.mem_cons_self)]
  parts := List.all_eq_true.mpr fun c mem => by
    simp [isWordPart, isAlphanum_of_isDigit (isDigit_of_mem_digits mem)]

def fields : List Field :=
  [⟨keyOf "key.request" (by decide +kernel), .plain false kindWord⟩,
    ⟨keyOf "key.sourcefile" (by decide +kernel), .quoted q.path.text.toList⟩,
    ⟨keyOf "key.offset" (by decide +kernel),
      .plain (q.offset < 0) (digitsWord q.offset.natAbs)⟩,
    ⟨keyOf "key.compilerargs" (by decide +kernel), .items q.path.text.toList
      ((["-target", settings.target, "-sdk", settings.sdk] ++ settings.compilerArgs).map
        String.toList)⟩]

theorem signedWord_digitsWord (n : Int) :
    signedWord (n < 0) (digitsWord n.natAbs) = Numeral.signed n := by
  by_cases negative : n < 0 <;> simp [signedWord, Numeral.signed, negative, digitsWord]

section

variable {name : String} (sound : isKeyName name.toList = true)

theorem textOf_plain (negative : Bool) (w : Word) :
    textOf (Field.lines ⟨keyOf name sound, .plain negative w⟩) =
      entry name (signedWord negative w) := by
  simp [textOf, Field.lines, Line.write, LineValue.write, entry, line, keyOf]

theorem textOf_quoted (text : List Char) :
    textOf (Field.lines ⟨keyOf name sound, .quoted text⟩) = entry name (writeQuoted text) := by
  simp [textOf, Field.lines, Line.write, LineValue.write, entry, line, keyOf]

theorem textOf_items (first : String) (more : List String) :
    textOf (Field.lines ⟨keyOf name sound, .items first.toList (more.map String.toList)⟩) =
      line (name.toList ++ [':']) ++ (first :: more).flatMap item := by
  have items : item = fun arg => '-' :: ' ' :: (writeQuoted arg.toList ++ ['\n']) := rfl
  simp [textOf, Field.lines, Line.write, LineValue.write, line, keyOf, items, List.flatMap_map]

end

theorem entries_eq_textOf :
    entry "key.request" kind ++ entry "key.sourcefile" (writeQuoted q.path.text.toList) ++
        entry "key.offset" (Numeral.signed q.offset) ++ line "key.compilerargs:".toList ++
        (q.compilerArgs settings).flatMap item =
      textOf ((q.fields settings).flatMap Field.lines) := by
  have heading : "key.compilerargs:".toList = "key.compilerargs".toList ++ [':'] := by
    decide +kernel
  have kind : signedWord false kindWord = kind := rfl
  simp only [fields, List.flatMap_cons, List.flatMap_nil, textOf_append, textOf_plain,
    textOf_quoted, textOf_items, signedWord_digitsWord, kind]
  simp [compilerArgs, heading, textOf]

theorem text_eq (limit : Numeral.Limit) :
    q.text limit settings =
      match limit.exceeded? (digits q.offset.natAbs).length with
      | some most => .error (.tooLongToWrite most)
      | none => .ok (String.ofList (textOf ((q.fields settings).flatMap Field.lines))) := by
  rw [text, write, Numeral.write]
  cases limit.exceeded? (digits q.offset.natAbs).length with
  | some most => rfl
  | none =>
    rw [← entries_eq_textOf, Except.map, Except.map, Numeral.text, String.toList_ofList]

theorem key_tags : ∀ f ∈ q.fields settings, Tag.ofPlain f.key.chars = .str := by
  intro f mem
  have names : (q.fields settings).map (fun f => f.key.chars) =
      ["key.request", "key.sourcefile", "key.offset", "key.compilerargs"].map String.toList := rfl
  have texts : ∀ chars ∈ ["key.request", "key.sourcefile", "key.offset", "key.compilerargs"].map
      String.toList, Tag.ofPlain chars = .str := by decide +kernel
  exact texts _ (names ▸ List.mem_map_of_mem mem)

section

variable {name : String} (sound : isKeyName name.toList = true) {limit : Numeral.Limit}

theorem result_quoted (text : String) :
    Field.result limit ⟨keyOf name sound, .quoted text.toList⟩ = .ok (.str name, .str text) := by
  simp [Field.result, FieldValue.result, keyOf, Except.map]

theorem result_items (first : String) (more : List String) :
    Field.result limit ⟨keyOf name sound, .items first.toList (more.map String.toList)⟩ =
      .ok (.str name, .seq ((first :: more).map .str)) := by
  simp [Field.result, FieldValue.result, keyOf, Except.map]

theorem result_kind :
    Field.result limit ⟨keyOf name sound, .plain false kindWord⟩ =
      .ok (.str name, .str "source.request.cursorinfo") := by
  have text : Tag.ofPlain kind = .str := by decide +kernel
  have same : String.ofList kind = "source.request.cursorinfo" := String.ofList_toList
  simp [Field.result, FieldValue.result, keyOf, Except.map, signedWord, kindWord, text, same,
    Scalar.value]

theorem result_offset {n : Int} (fits : limit.exceeded? (digits n.natAbs).length = none) :
    Field.result limit ⟨keyOf name sound, .plain (n < 0) (digitsWord n.natAbs)⟩ =
      .ok (.str name, .int n) := by
  simp [Field.result, FieldValue.result, signedWord_digitsWord, ofPlain_signed, Scalar.value,
    int_signed fits, Except.map, keyOf]

end

def meant : Value :=
  .map [(.str "key.request", .str "source.request.cursorinfo"),
    (.str "key.sourcefile", .str q.path.text),
    (.str "key.offset", .int q.offset),
    (.str "key.compilerargs", .seq (([q.path.text, "-target", settings.target, "-sdk",
      settings.sdk] ++ settings.compilerArgs).map .str))]

theorem results_fields {limit : Numeral.Limit}
    (fits : limit.exceeded? (digits q.offset.natAbs).length = none) :
    ((q.fields settings).mapM (Field.result limit)).map Value.map = .ok (q.meant settings) := by
  simp only [fields, List.mapM_cons, List.mapM_nil, result_kind, result_quoted,
    result_offset _ fits, result_items]
  rfl

def lineStarts : List String :=
  ["key.request: ", "key.sourcefile: ", "key.offset: ", "key.compilerargs:"] ++
    (q.compilerArgs settings).map fun _ => "- "

def lines : List (List Char) := ((q.fields settings).flatMap Field.lines).map Line.write

theorem lines_start :
    List.Forall₂ (fun start line => start.toList <+: line) (q.lineStarts settings)
      (q.lines settings) := by
  have items : List.Forall₂ (fun (start : String) line => start.toList <+: line)
      ((q.compilerArgs settings).map fun _ => "- ")
      ((((q.compilerArgs settings).map String.toList).map Line.item).map Line.write) := by
    rw [List.map_map, List.map_map, List.forall₂_map_left_iff, List.forall₂_map_right_iff,
      List.forall₂_same]
    exact fun arg _ => ⟨writeQuoted arg.toList, rfl⟩
  rw [lineStarts, lines, fields]
  simp only [List.flatMap_cons, List.flatMap_nil, List.map_append, List.append_nil]
  exact .cons ⟨_, rfl⟩ (.cons ⟨_, rfl⟩ (.cons ⟨_, rfl⟩ (.cons ⟨[], rfl⟩ items)))

/-- A text that stands for the query: ASCII with one line of printable characters for each key and
each argument, which loads as the mapping of the kind, the path, the offset and the arguments. -/
structure Stands (limit : Numeral.Limit) (text : String) : Prop where
  ascii : ∀ ch ∈ text.toList, ch.toNat < 128
  lines : ∃ lines : List (List Char),
    text.toList = lines.flatMap (· ++ ['\n']) ∧
    (∀ line ∈ lines, ∀ ch ∈ line, isPlainAscii ch = true) ∧
    List.Forall₂ (fun start line => start.toList <+: line) (q.lineStarts settings) lines
  loads : load limit text = .ok (q.meant settings)

theorem stands_textOf {limit : Numeral.Limit}
    (fits : limit.exceeded? (digits q.offset.natAbs).length = none) :
    q.Stands settings limit (String.ofList (textOf ((q.fields settings).flatMap Field.lines))) := by
  have text : textOf ((q.fields settings).flatMap Field.lines) =
      (q.lines settings).flatMap (· ++ ['\n']) := by
    rw [lines, List.flatMap_map]
    rfl
  have plain : ∀ line ∈ q.lines settings, ∀ ch ∈ line, isPlainAscii ch = true := by
    intro line mem ch within
    obtain ⟨source, -, rfl⟩ := List.mem_map.mp mem
    exact isPlainAscii_of_mem_write within
  constructor
  · intro ch mem
    rw [String.toList_ofList, text] at mem
    obtain ⟨line, among, within⟩ := List.mem_flatMap.mp mem
    rcases List.mem_append.mp within with written | ends
    · have printable := plain line among ch written
      simp only [isPlainAscii, Bool.and_eq_true, decide_eq_true_eq] at printable
      omega
    · rw [List.mem_singleton.mp ends]
      decide
  · exact ⟨q.lines settings, by rw [String.toList_ofList, text], plain, q.lines_start settings⟩
  · have filled : q.fields settings ≠ [] := List.cons_ne_nil _ _
    rw [load_textOf filled (q.key_tags settings), results_fields settings q fits]

theorem text_of_exceeded_none {limit : Numeral.Limit}
    (fits : limit.exceeded? (digits q.offset.natAbs).length = none) :
    q.text limit settings =
      .ok (String.ofList (textOf ((q.fields settings).flatMap Field.lines))) := by
  rw [text_eq, fits]

theorem exceeded_eq_none {most n : Nat} (short : n ≤ most) :
    Numeral.Limit.exceeded? (some most) n = none := by
  rw [Numeral.Limit.exceeded?_some, if_neg (Nat.not_lt.mpr short)]

end ModuleStubs.Query
