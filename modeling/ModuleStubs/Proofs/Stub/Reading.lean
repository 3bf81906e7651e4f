import ModuleStubs.Proofs.Text.Splitting
import ModuleStubs.Stub.Reader
import ModuleStubs.Stub.Render

/-! Stub files can be read back. The text of a unit falls into the lines of its aliases and
functions, and from these lines the reader recovers all aliases and functions. -/

namespace ModuleStubs

namespace StubText

def punctuation : Wording := Wording.ofString " \n(),:;=<>[]"

def Plain (text : Wording) : Prop := ∀ c ∈ text, c ∉ punctuation

def IsType (text : Wording) : Prop :=
  ∃ name layers, Plain name ∧
    text = name ++ (List.replicate layers (Wording.ofString "[]")).flatten

def IsResult (text : Wording) : Prop :=
  IsType text ∨ ∃ inner, IsType inner ∧ text = "Promise<" ++ inner ++ ">"

def literals : List Wording := ["''", "false", "0", "[]", "null"].map Wording.ofString

end StubText

open StubText

structure AliasStub.Legible (a : AliasStub) : Prop where
  name : Plain a.name
  target : IsType a.target

structure ParameterStub.Legible (p : ParameterStub) : Prop where
  name : Plain p.name
  type : IsType p.type

structure FunctionStub.Legible (f : FunctionStub) : Prop where
  name : Plain f.name
  parameters : ∀ p ∈ f.parameters, p.Legible
  returnType : IsResult f.returnType
  returnValue : ∀ value, f.returnValue = some value → value ∈ literals

structure StubUnit.Legible (u : StubUnit) : Prop where
  aliases : ∀ a ∈ u.aliases, a.Legible
  functions : ∀ f ∈ u.functions, f.Legible

def AliasStub.line (a : AliasStub) : Wording :=
  "export type " ++ (a.name ++ (" = " ++ (a.target ++ ";")))

def FunctionStub.opening (f : FunctionStub) : Wording :=
  Wording.ofString (if f.isAsync then "export async function " else "export function ")

def FunctionStub.head (f : FunctionStub) : Wording :=
  f.opening ++ (f.name ++ ("(" ++ (f.signature ++ ("): " ++ (f.returnType ++ " \x7b")))))

def valueLine (value : Wording) : Wording := "    return " ++ (value ++ ";")

def FunctionStub.lines (f : FunctionStub) : List Wording :=
  f.head :: f.returnValue.toList.map valueLine ++ [Wording.ofString "\x7d"]

def StubUnit.lines (u : StubUnit) : List Wording :=
  u.aliases.map AliasStub.line ++ u.functions.flatMap FunctionStub.lines

theorem AliasStub.render_eq (a : AliasStub) : a.render = a.line ++ [.char '\n'] := by
  have last : Wording.ofString ";\n" = Wording.ofString ";" ++ [.char '\n'] := rfl
  simp only [render, line, last, List.append_assoc]

theorem FunctionStub.render_eq (f : FunctionStub) :
    f.render = f.lines.flatMap (· ++ [.char '\n']) := by
  obtain ⟨name, parameters, returnType, returnValue, isAsync⟩ := f
  have start : Wording.ofString ("export " ++ if isAsync then "async function " else "function ") =
      Wording.ofString (if isAsync then "export async function " else "export function ") := by
    cases isAsync <;> rfl
  have brace : Wording.ofString " \x7b\n" = Wording.ofString " \x7b" ++ [.char '\n'] := rfl
  have close : Wording.ofString "\x7d\n" = Wording.ofString "\x7d" ++ [.char '\n'] := rfl
  have semicolon : Wording.ofString ";\n" = Wording.ofString ";" ++ [.char '\n'] := rfl
  cases returnValue <;>
    simp [render, lines, head, opening, valueLine, returnLine, start, brace, close, semicolon]

theorem StubUnit.render_eq (u : StubUnit) : u.render = u.lines.flatMap (· ++ [.char '\n']) := by
  rw [render, lines, List.flatMap_append, List.flatMap_map, List.flatMap_assoc,
    funext AliasStub.render_eq, funext FunctionStub.render_eq]

namespace StubText

def outerMarks : Wording := Wording.ofString " \n,);"

theorem IsType.clean {text : Wording} (type : IsType text) {c : CodePoint}
    (mark : c ∈ outerMarks) : c ∉ text := by
  obtain ⟨name, layers, plain, rfl⟩ := type
  intro mem
  rcases List.mem_append.mp mem with mem | mem
  · have punctuated : outerMarks ⊆ punctuation := by decide
    exact plain c mem (punctuated mark)
  · obtain ⟨layer, listed, within⟩ := List.mem_flatten.mp mem
    rw [List.eq_of_mem_replicate listed] at within
    have apart : ∀ d ∈ outerMarks, d ∉ Wording.ofString "[]" := by decide
    exact apart c mark within

theorem IsResult.clean {text : Wording} (result : IsResult text) : .char '\n' ∉ text := by
  rcases result with type | ⟨inner, type, rfl⟩
  · exact type.clean (by decide)
  · have clean : .char '\n' ∉ inner := type.clean (by decide)
    simp [clean, Wording.ofString]

end StubText

theorem AliasStub.Legible.clean {a : AliasStub} (legible : a.Legible) : .char '\n' ∉ a.line := by
  have name : .char '\n' ∉ a.name := fun mem => legible.name _ mem (by decide)
  have target : .char '\n' ∉ a.target := legible.target.clean (by decide)
  simp [AliasStub.line, name, target, Wording.ofString]

theorem ParameterStub.Legible.clean {p : ParameterStub} (legible : p.Legible) {c : CodePoint}
    (mark : c ∈ Wording.ofString "\n,)") : c ∉ p.text := by
  have inName : Wording.ofString "\n,)" ⊆ punctuation := by decide
  have inType : Wording.ofString "\n,)" ⊆ outerMarks := by decide
  have apart : ∀ d ∈ Wording.ofString "\n,)", d ∉ Wording.ofString ": " := by decide
  have name : c ∉ p.name := fun mem => legible.name c mem (inName mark)
  have type := legible.type.clean (inType mark)
  simp only [ParameterStub.text, List.mem_append, name, apart c mark, type, or_self,
    not_false_eq_true]

theorem FunctionStub.Legible.clean_signature {f : FunctionStub} (legible : f.Legible)
    {c : CodePoint} (mark : c ∈ Wording.ofString "\n)") : c ∉ f.signature := by
  have apart : ∀ d ∈ Wording.ofString "\n)",
      d ∈ Wording.ofString "\n,)" ∧ d ∉ Wording.ofString ", " := by decide
  have parameters : ∀ piece ∈ f.parameters.map ParameterStub.text, c ∉ piece := by
    intro piece mem
    obtain ⟨p, listed, rfl⟩ := List.mem_map.mp mem
    exact (legible.parameters p listed).clean (apart c mark).1
  exact Text.notMem_joinWith (apart c mark).2 parameters

theorem FunctionStub.clean_opening (f : FunctionStub) : .char '\n' ∉ f.opening := by
  rw [opening]
  split <;> decide

theorem FunctionStub.Legible.clean {f : FunctionStub} (legible : f.Legible) :
    ∀ line ∈ f.lines, .char '\n' ∉ line := by
  have name : .char '\n' ∉ f.name := fun mem => legible.name _ mem (by decide)
  have signature : .char '\n' ∉ f.signature := legible.clean_signature (by decide)
  have returnType := legible.returnType.clean
  have head : .char '\n' ∉ f.head := by
    simp [FunctionStub.head, name, signature, returnType, f.clean_opening, Wording.ofString]
  have value : ∀ line ∈ f.returnValue.toList.map valueLine, .char '\n' ∉ line := by
    intro line mem
    obtain ⟨value, given, rfl⟩ := List.mem_map.mp mem
    have short : ∀ literal ∈ literals, .char '\n' ∉ literal := by decide
    have clean := short value (legible.returnValue value (Option.mem_toList.mp given))
    simp [valueLine, clean, Wording.ofString]
  intro line mem
  rcases List.mem_append.mp mem with mem | mem
  · rcases List.mem_cons.mp mem with rfl | mem
    · exact head
    · exact value line mem
  · rw [List.mem_singleton.mp mem]
    decide

theorem StubUnit.Legible.clean {u : StubUnit} (legible : u.Legible) :
    ∀ line ∈ u.lines, .char '\n' ∉ line := by
  intro line mem
  rcases List.mem_append.mp mem with mem | mem
  · obtain ⟨a, listed, rfl⟩ := List.mem_map.mp mem
    exact (legible.aliases a listed).clean
  · obtain ⟨f, listed, within⟩ := List.mem_flatMap.mp mem
    exact (legible.functions f listed).clean line within

theorem StubUnit.lines_render {u : StubUnit} (legible : u.Legible) :
    Text.splitOn (.char '\n') u.render = u.lines ++ [[]] := by
  rw [u.render_eq, Text.splitOn_lines legible.clean]

namespace StubText

open Text

theorem before?_append (front ending : Wording) :
    before? ending (front ++ ending) = some front := by
  rw [before?, List.reverse_append, after?_append, Option.map_some, List.reverse_reverse]

theorem alias?_line {a : AliasStub} (legible : a.Legible) : alias? a.line = some a := by
  have apart : .char ' ' ∉ a.name := fun mem => legible.name _ mem (by decide)
  have cut : cutAt? (Wording.ofString " = ") (a.name ++ (" = " ++ (a.target ++ ";"))) =
      some (a.name, a.target ++ ";") := cutAt?_append apart (Wording.ofString "= ") _
  rw [alias?, AliasStub.line, after?_append]
  change (cutAt? _ _ >>= _) = _
  rw [cut]
  change (before? _ _ >>= _) = _
  rw [before?_append]
  rfl

theorem parameter?_text {p : ParameterStub} (legible : p.Legible) :
    parameter? p.text = some p := by
  have apart : .char ':' ∉ p.name := fun mem => legible.name _ mem (by decide)
  have cut : cutAt? (Wording.ofString ": ") (p.name ++ (": " ++ p.type)) = some (p.name, p.type) :=
    cutAt?_append apart (Wording.ofString " ") p.type
  rw [parameter?, ParameterStub.text, List.append_assoc, cut]
  rfl

theorem mapM_parameter? {ps : List ParameterStub} (legible : ∀ p ∈ ps, p.Legible) :
    (ps.map fun p => [.char ' '] ++ p.text).mapM
      (fun piece => (after? [.char ' '] piece).bind parameter?) = some ps := by
  induction ps with
  | nil => rfl
  | cons p ps ih =>
    obtain ⟨first, rest⟩ := List.forall_mem_cons.mp legible
    rw [List.map_cons, List.mapM_cons, after?_append, Option.bind_some, parameter?_text first,
      ih rest]
    rfl

theorem parameters?_signature {f : FunctionStub} (legible : ∀ p ∈ f.parameters, p.Legible) :
    parameters? f.signature = some f.parameters := by
  cases listed : f.parameters with
  | nil => simp [FunctionStub.signature, listed, joinWith, parameters?]
  | cons p ps =>
    rw [listed] at legible
    obtain ⟨first, rest⟩ := List.forall_mem_cons.mp legible
    have chars : f.signature = (CodePoint.char ',' :: [.char ' ']).intercalate
        (p.text :: ps.map ParameterStub.text) := by
      rw [FunctionStub.signature, listed, joinWith_eq_intercalate]
      rfl
    have clean : ∀ piece ∈ p.text :: ps.map ParameterStub.text, .char ',' ∉ piece := by
      have each : ∀ q ∈ p :: ps, .char ',' ∉ q.text := fun q mem =>
        (legible q mem).clean (by decide)
      simpa using each
    have apart : CodePoint.char ',' ∉ [CodePoint.char ' '] := by decide
    have split := splitOn_intercalate apart clean
    have filled : f.signature ≠ [] := by
      intro empty
      rw [← chars, empty] at split
      have same := (List.cons.inj split).1
      have colon : .char ':' ∈ p.text := by simp [ParameterStub.text, Wording.ofString]
      rw [← same] at colon
      exact List.not_mem_nil colon
    rw [parameters?, if_neg (by simpa using filled), chars, split]
    simp only [List.map_map, Function.comp_def, parameter?_text first, mapM_parameter? rest]
    rfl

theorem opening?_append (f : FunctionStub) (rest : Wording) :
    opening? (f.opening ++ rest) = some (f.isAsync, rest) := by
  rw [opening?, FunctionStub.opening]
  cases f.isAsync with
  | false =>
    rw [if_neg (by decide), after?_append]
    rfl
  | true =>
    have other : after? (Wording.ofString "export function ")
      (Wording.ofString "export async function " ++ rest) = none := rfl
    rw [if_pos rfl, after?_append, other]
    rfl

theorem function?_head {f : FunctionStub} (legible : f.Legible) :
    function? f.returnValue f.head = some f := by
  have name : .char '(' ∉ f.name := fun mem => legible.name _ mem (by decide)
  have signature : .char ')' ∉ f.signature := legible.clean_signature (by decide)
  have cutName := cutAt?_append name [] (f.signature ++ ("): " ++ (f.returnType ++ " \x7b")))
  have cutSignature := cutAt?_append signature (Wording.ofString ": ") (f.returnType ++ " \x7b")
  rw [function?, FunctionStub.head, opening?_append]
  change (cutAt? [CodePoint.char '('] (_ ++ (CodePoint.char '(' :: [] ++ _)) >>= _) = _
  rw [cutName]
  change (cutAt? (CodePoint.char ')' :: Wording.ofString ": ")
    (_ ++ (CodePoint.char ')' :: Wording.ofString ": " ++ _)) >>= _) = _
  rw [cutSignature]
  change (parameters? f.signature >>= _) = _
  rw [parameters?_signature legible.parameters]
  change (before? _ _ >>= _) = _
  rw [before?_append]
  rfl

theorem value?_line (value : Wording) : value? (valueLine value) = some value := by
  rw [value?, valueLine, after?_append]
  exact before?_append value _

theorem functions?_lines {fs : List FunctionStub} (legible : ∀ f ∈ fs, f.Legible) :
    functions? (fs.flatMap FunctionStub.lines ++ [[]]) = some fs := by
  induction fs with
  | nil => rfl
  | cons f fs ih =>
    obtain ⟨first, rest⟩ := List.forall_mem_cons.mp legible
    have head := function?_head first
    rw [List.flatMap_cons, FunctionStub.lines]
    cases given : f.returnValue with
    | none =>
      rw [given] at head
      change functions? (f.head :: [.char '\x7d'] :: (fs.flatMap FunctionStub.lines ++ [[]])) = _
      rw [functions?, head, ih rest]
      rfl
    | some value =>
      rw [given] at head
      change functions? (f.head :: valueLine value :: [.char '\x7d'] ::
        (fs.flatMap FunctionStub.lines ++ [[]])) = _
      rw [functions?, value?_line]
      · change (function? (some value) f.head >>= _) = _
        rw [head, ih rest]
        rfl
      · -- The line of a return is not a closing brace.
        intro same
        simp [valueLine, Wording.ofString] at same

theorem alias?_head (f : FunctionStub) : alias? f.head = none := by
  rw [alias?, FunctionStub.head, FunctionStub.opening]
  cases f.isAsync <;> rfl

theorem unit?_lines {u : StubUnit} (legible : u.Legible) :
    unit? (u.lines ++ [[]]) = some (u.aliases, u.functions) := by
  obtain ⟨module, aliases, functions⟩ := u
  have last : unit? (functions.flatMap FunctionStub.lines ++ [[]]) = some ([], functions) := by
    have read := functions?_lines legible.functions
    cases functions with
    | nil => rfl
    | cons f fs =>
      have step : ∀ rest, unit? (f.head :: rest) = (functions? (f.head :: rest)).map ([], ·) := by
        intro rest
        rw [unit?, alias?_head]
      refine (step _).trans ?_
      change (functions? ((f :: fs).flatMap FunctionStub.lines ++ [[]])).map _ = _
      rw [read]
      rfl
  have each := legible.aliases
  rw [StubUnit.lines, List.append_assoc]
  induction aliases with
  | nil => exact last
  | cons a aliases ih =>
    obtain ⟨first, rest⟩ := List.forall_mem_cons.mp each
    have later := ih ⟨rest, legible.functions⟩ rest
    rw [List.map_cons, List.cons_append, unit?, alias?_line first]
    simp only [later, Option.map_some]

theorem read_render {u : StubUnit} (legible : u.Legible) :
    read u.render = some (u.aliases, u.functions) := by
  rw [read, u.lines_render legible, unit?_lines legible]

theorem isPart_of_isStart {c : CodePoint} (start : c.isStart = true) : c.isPart = true := by
  cases c with
  | half n => cases start
  | char c =>
    change isIdentifierPart c = true
    rw [isIdentifierPart, show isIdentifierStart c = true from start]
    rfl

theorem plain_of_isIdentifier {name : Wording} (identifier : isIdentifier name) : Plain name := by
  have apart : ∀ c ∈ punctuation, c.isPart = false := by decide
  have parts : ∀ c ∈ name, c.isPart = true := by
    cases name with
    | nil => exact nofun
    | cons first rest =>
      rw [isIdentifier, Bool.and_eq_true, List.all_eq_true] at identifier
      exact List.forall_mem_cons.mpr ⟨isPart_of_isStart identifier.1, identifier.2⟩
  intro c mem mark
  exact absurd (parts c mem) (by simp [apart c mark])

end StubText

/-- The text of a legible unit has a line for each alias and the lines of each function, of
which one returns a value exactly if there is one. Reading it gives back all aliases and
functions, so no legible unit with other ones has the same text. -/
theorem StubUnit.render_decodes (u : StubUnit) (legible : u.Legible) :
    StubText.read u.render = some (u.aliases, u.functions) ∧
      Text.splitOn (.char '\n') u.render = u.lines ++ [[]] ∧
      ∀ v : StubUnit, v.Legible → v.render = u.render →
        v.aliases = u.aliases ∧ v.functions = u.functions := by
  refine ⟨read_render legible, lines_render legible, fun v other same => ?_⟩
  have found := read_render other
  rw [same, read_render legible, Option.some.injEq, Prod.mk.injEq] at found
  exact ⟨found.1.symm, found.2.symm⟩

def StubUnit.sample : StubUnit :=
  { module := "M"
    aliases := [⟨"$Item_1", "any"⟩]
    functions := [⟨"type", [⟨"a", "string"⟩, ⟨"_b", "$Item_1[]"⟩], "void", none, false⟩,
      ⟨"load", [], "Promise<number[][]>", some (Wording.ofString "[]"), true⟩] }

theorem StubUnit.sample_decodes :
    StubText.read sample.render = some (sample.aliases, sample.functions) ∧
      Text.splitOn (.char '\n') sample.render = ["export type $Item_1 = any;",
        "export function type(a: string, _b: $Item_1[]): void \x7b", "\x7d",
        "export async function load(): Promise<number[][]> \x7b", "    return [];", "\x7d",
        ""].map Wording.ofString := by
  have plain : ∀ name ∈ ["$Item_1", "any", "type", "a", "string", "_b", "void", "load", "number"],
      Plain name := by
    have identifiers : ∀ name ∈ ["$Item_1", "any", "type", "a", "string", "_b", "void", "load",
        "number"], isIdentifier (Wording.ofString name) := by decide
    exact fun name mem => plain_of_isIdentifier (identifiers name mem)
  simp only [List.mem_cons, List.not_mem_nil, or_false, forall_eq_or_imp, forall_eq] at plain
  obtain ⟨item, any, type, a, string, b, void, load, number⟩ := plain
  have items : ParameterStub.Legible ⟨"_b", "$Item_1[]"⟩ := ⟨b, _, 1, item, rfl⟩
  have first : ParameterStub.Legible ⟨"a", "string"⟩ := ⟨a, _, 0, string, rfl⟩
  have matrix : IsType (Wording.ofString "number[][]") := ⟨_, 2, number, rfl⟩
  have legible : sample.Legible := by
    refine ⟨List.forall_mem_singleton.mpr ⟨item, _, 0, any, rfl⟩, ?_⟩
    refine List.forall_mem_cons.mpr ⟨⟨type, ?_, .inl ⟨_, 0, void, rfl⟩, nofun⟩, ?_⟩
    · exact List.forall_mem_cons.mpr ⟨first, List.forall_mem_singleton.mpr items⟩
    · refine List.forall_mem_singleton.mpr ⟨load, nofun, .inr ⟨_, matrix, rfl⟩, ?_⟩
      rintro value ⟨⟩
      decide
  obtain ⟨read, lines, -⟩ := sample.render_decodes legible
  exact ⟨read, lines⟩

end ModuleStubs
