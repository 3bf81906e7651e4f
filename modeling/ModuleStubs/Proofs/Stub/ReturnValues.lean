import ModuleStubs.Proofs.Extraction.Classification
import ModuleStubs.Proofs.Extraction.Origin
import ModuleStubs.Proofs.Json.RoundTrip
import ModuleStubs.Proofs.Stub.Aliases
import ModuleStubs.Proofs.Stub.ParameterNames
import ModuleStubs.Proofs.Stub.Reading
import ModuleStubs.Proofs.Tool.Markup

/-! What stubs return, against the types that are printed for them. Read as TypeScript in its
own file, the printed type has the literal of the stub as a value, unless a type of the module
is called like a keyword or like an array. -/

namespace ModuleStubs

inductive TypeForm where
  | string
  | boolean
  | number
  | any
  | void
  | list (element : Wording)
  /-- An alias of the file, which stands for any type. -/
  | placeholder (name : Wording)

namespace TypeForm

def builtIns : List (Wording × TypeForm) :=
  [("string", .string), ("boolean", .boolean), ("number", .number), ("any", .any), ("void", .void)]

def keywords : List Wording := ["string", "boolean", "number", "void"].map Wording.ofString

/-- Two brackets at the end make a list; every name that is not built in has to be an alias. -/
def ofText? (aliases : List Wording) (text : Wording) : Option TypeForm :=
  match StubText.before? "[]" text with
  | some element => some (.list element)
  | none => (builtIns.lookup text).or (if text ∈ aliases then some (.placeholder text) else none)

/-- What a function with this result may return; one without a result returns nothing. -/
inductive Admits : TypeForm → Option Wording → Prop
  | emptyText : Admits .string (some (Wording.ofString "''"))
  | no : Admits .boolean (some (Wording.ofString "false"))
  | zero : Admits .number (some (Wording.ofString "0"))
  | null : Admits .any (some (Wording.ofString "null"))
  | nothing : Admits .void none
  | emptyList {element : Wording} : Admits (.list element) (some (Wording.ofString "[]"))
  | nullPlaceholder {name : Wording} : Admits (.placeholder name) (some (Wording.ofString "null"))

def Allows (aliases : List Wording) (text : Wording) (value : Option Wording) : Prop :=
  ∃ form, ofText? aliases text = some form ∧ form.Admits value

end TypeForm

def FunctionStub.resultText? (f : FunctionStub) : Option Wording :=
  if f.isAsync then
    (Text.after? (Wording.ofString "Promise<") f.returnType).bind (StubText.before? ">")
  else some f.returnType

/-- The literal that a stub returns is a value of the type that is printed for it. -/
def StubUnit.Answers (u : StubUnit) (f : FunctionStub) : Prop :=
  ∃ text, f.resultText? = some text ∧ TypeForm.Allows u.aliasNames text f.returnValue

/-- A type of the module that is called like a keyword, or like an array of something. -/
def Descriptor.Disguised (d : Descriptor) : Prop :=
  ∃ name, d = .reference name ∧
    (name ∈ TypeForm.keywords ∨ ∃ element : Wording, name = element ++ "[]")

namespace TypeForm

theorem eq_append_of_before? {ending cs front : Wording}
    (found : StubText.before? ending cs = some front) : cs = front ++ ending := by
  obtain ⟨rest, after, rfl⟩ := Option.map_eq_some_iff.mp found
  have chars := List.reverse_eq_iff.mp (Text.eq_append_of_after? after)
  rw [chars, List.reverse_append, List.reverse_reverse]

theorem ofText?_list (aliases : List Wording) (element : Wording) :
    ofText? aliases (element ++ "[]") = some (.list element) := by
  rw [ofText?, StubText.before?_append]

variable {aliases : List Wording}

theorem allows_iff_of_form {text : Wording} {form : TypeForm}
    (reads : ofText? aliases text = some form) {value : Option Wording} :
    Allows aliases text value ↔ form.Admits value := by
  constructor
  · rintro ⟨other, same, admits⟩
    rw [reads] at same
    cases same
    exact admits
  · exact fun admits => ⟨form, reads, admits⟩

theorem allows_keyword (k : Keyword) :
    Allows aliases k.text (some (Wording.ofString k.literal)) := by
  cases k with
  | string => exact ⟨.string, rfl, .emptyText⟩
  | boolean => exact ⟨.boolean, rfl, .no⟩
  | number => exact ⟨.number, rfl, .zero⟩

theorem ofText?_of_single {name : Wording}
    (single : ∀ element : Wording, name ≠ element ++ "[]") :
    ofText? aliases name =
      (builtIns.lookup name).or (if name ∈ aliases then some (.placeholder name) else none) := by
  rw [ofText?]
  cases found : StubText.before? "[]" name with
  | none => rfl
  | some element => exact absurd (eq_append_of_before? found) (single element)

theorem lookup_builtIns_eq_none {name : Wording} (free : name ∉ keywords) (other : name ≠ "any") :
    builtIns.lookup name = none := by
  simp only [keywords, List.map_cons, List.map_nil, List.mem_cons, List.not_mem_nil, or_false,
    not_or] at free
  obtain ⟨string, boolean, number, void⟩ := free
  simp [builtIns, List.lookup_eq_none_iff, string, boolean, number, void, other]

theorem admits_null_iff {form : TypeForm} :
    form.Admits (some (Wording.ofString "null")) ↔
      form = .any ∨ ∃ name, form = .placeholder name := by
  constructor
  · intro admits
    generalize written : some (Wording.ofString "null") = value at admits
    cases admits with
    | null => exact .inl rfl
    | nullPlaceholder => exact .inr ⟨_, rfl⟩
    | _ => simp at written
  · rintro (rfl | ⟨name, rfl⟩)
    · exact .null
    · exact .nullPlaceholder

/-- The literal of a reference is null, which is a value of its alias but of no keyword but one. -/
theorem allows_null_iff {name : Wording} (known : name ∈ aliases) :
    Allows aliases name (some (Wording.ofString "null")) ↔
      ¬ (name ∈ keywords ∨ ∃ element : Wording, name = element ++ "[]") := by
  by_cases list : ∃ element : Wording, name = element ++ "[]"
  · obtain ⟨element, rfl⟩ := list
    rw [allows_iff_of_form (ofText?_list aliases element), admits_null_iff]
    exact iff_of_false nofun (not_not_intro (.inr ⟨element, rfl⟩))
  · have single : ∀ element : Wording, name ≠ element ++ "[]" :=
      fun element same => list ⟨element, same⟩
    by_cases taken : name ∈ keywords
    · refine iff_of_false ?_ (not_not_intro (.inl taken))
      rintro ⟨form, reads, admits⟩
      simp only [keywords, List.map_cons, List.map_nil, List.mem_cons, List.not_mem_nil,
        or_false] at taken
      rcases taken with rfl | rfl | rfl | rfl
      all_goals
        cases reads
        exact absurd (admits_null_iff.mp admits) nofun
    · refine iff_of_true ?_ (not_or.mpr ⟨taken, list⟩)
      by_cases any : name = Wording.ofString "any"
      · subst any
        exact ⟨.any, rfl, .null⟩
      · refine ⟨.placeholder name, ?_, .nullPlaceholder⟩
        rw [ofText?_of_single single, lookup_builtIns_eq_none taken any, if_pos known]
        rfl

/-- The literal for a descriptor is a value of its printed type, unless that is misread. -/
theorem allows_stubValue_iff {d : Descriptor} {text : Wording} {value : Option String}
    (known : ∀ name, d = .reference name → name ∈ aliases) (typed : d.typescript = .ok text)
    (valued : d.stubValue = .ok value) :
    Allows aliases text (value.map Wording.ofString) ↔ ¬ d.Disguised := by
  have plain : (∀ name, d ≠ .reference name) → ¬ d.Disguised := by
    rintro other ⟨name, same, -⟩
    exact other name same
  cases d with
  | primitive name =>
    obtain ⟨k, found⟩ := Descriptor.keyword_of_mem (Descriptor.tabled_of_typescript typed)
    rw [Descriptor.typescript, found] at typed
    rw [Descriptor.stubValue, found] at valued
    cases typed
    cases valued
    exact iff_of_true (allows_keyword k) (plain (by rintro name ⟨⟩))
  | array element =>
    have tabled : (Descriptor.array element).Tabled := Descriptor.tabled_of_typescript typed
    obtain ⟨inner, printed⟩ := element.typescript_of_tabled tabled
    rw [Descriptor.typescript, printed] at typed
    cases typed
    cases valued
    rw [allows_iff_of_form (ofText?_list aliases inner)]
    exact iff_of_true .emptyList (plain (by rintro name ⟨⟩))
  | reference name =>
    cases typed
    cases valued
    rw [Option.map_some, allows_null_iff (known _ rfl), not_iff_not]
    constructor
    · exact fun taken => ⟨_, rfl, taken⟩
    · rintro ⟨_, ⟨⟩, taken⟩
      exact taken
  | unknown =>
    cases typed
    cases valued
    exact iff_of_true ⟨.any, rfl, .null⟩ (plain (by rintro name ⟨⟩))
  | void =>
    cases typed
    cases valued
    exact iff_of_true ⟨.void, rfl, .nothing⟩ (plain (by rintro name ⟨⟩))

end TypeForm

theorem FunctionStub.resultText?_of_promised {f : FunctionStub} {text : Wording}
    (printed : f.returnType = promised f.isAsync text) : f.resultText? = some text := by
  rw [resultText?, printed]
  cases f.isAsync with
  | false => rfl
  | true =>
    simp only [promised, ↓reduceIte, List.append_assoc, Text.after?_append, Option.bind_some,
      StubText.before?_append]

theorem StubUnit.answers_iff_of_stub {u : StubUnit} {d : Declaration} {isAsync : Bool}
    {f : FunctionStub} (known : ∀ name, d.signature.result = .reference name → name ∈ u.aliasNames)
    (made : d.stub isAsync = .ok f) : u.Answers f ↔ ¬ d.signature.result.Disguised := by
  obtain ⟨text, typed, made⟩ := of_bind_eq_ok made
  obtain ⟨parameters, listed, made⟩ := of_bind_eq_ok made
  obtain ⟨value, valued, made⟩ := of_bind_eq_ok made
  cases made
  have taken : FunctionStub.resultText?
      ⟨d.stubName, parameters, promised isAsync text, value.map Wording.ofString, isAsync⟩ =
        some text :=
    FunctionStub.resultText?_of_promised rfl
  rw [← TypeForm.allows_stubValue_iff known typed valued, StubUnit.Answers, taken]
  exact ⟨fun ⟨_, same, allowed⟩ => by cases same; exact allowed, fun allowed => ⟨_, rfl, allowed⟩⟩

def StubUnit.AnswersFor (u : StubUnit) (isAsync : Bool) (d : Declaration) (f : FunctionStub) :
    Prop :=
  d.stub isAsync = .ok f ∧ (u.Answers f ↔ ¬ d.signature.result.Disguised)

theorem StubUnit.forall_answers_iff {u : StubUnit} {isAsync : Bool} {ds : List Declaration}
    {fs : List FunctionStub} (pairs : List.Forall₂ (u.AnswersFor isAsync) ds fs) :
    (∀ f ∈ fs, u.Answers f) ↔ ∀ d ∈ ds, ¬ d.signature.result.Disguised := by
  induction pairs with
  | nil => exact ⟨fun _ => nofun, fun _ => nofun⟩
  | cons first rest ih => rw [List.forall_mem_cons, List.forall_mem_cons, first.2, ih]

namespace Definition

variable {m : Definition}

theorem answersFor_of_stubs {u : StubUnit} (known : u.aliasNames = m.typesToStub) {isAsync : Bool}
    {ds : List Declaration} {fs : List FunctionStub} (declared : ∀ d ∈ ds, m.Declares d)
    (pairs : List.Forall₂ (fun d f => Declaration.stub isAsync d = .ok f) ds fs) :
    List.Forall₂ (u.AnswersFor isAsync) ds fs := by
  refine List.forall₂_iff_zip.mpr ⟨pairs.length_eq, fun {d f} mem => ?_⟩
  have made := (List.forall₂_iff_zip.mp pairs).2 mem
  refine ⟨made, StubUnit.answers_iff_of_stub (fun name result => ?_) made⟩
  rw [known]
  exact mem_typesToStub.mpr ⟨d, declared d (List.of_mem_zip mem).1, .inr (result ▸ .reference)⟩

/-- Stubs are prepared for all functions of an extracted module, in order. What a stub returns is a
value of the type that is printed for it, and nothing exactly if that is nothing, unless the
result is a type of the module that is called like a keyword other than `any`, or like an array.
So all stubs answer what they promise exactly when no function has a result of this kind. -/
theorem stub_results_answer_iff (m : Definition) (extracted : m.Extracted) :
    ∃ u plain promises, m.unit = .ok u ∧ u.functions = plain ++ promises ∧
      List.Forall₂ (u.AnswersFor false) m.functions plain ∧
      List.Forall₂ (u.AnswersFor true) m.asyncFunctions promises ∧
      ((∀ f ∈ u.functions, u.Answers f) ↔
        ∀ d ∈ m.functions ++ m.asyncFunctions, ¬ d.signature.result.Disguised) := by
  obtain ⟨plain, promises, done, first, second⟩ :=
    unit_of_tabled fun d mem => (extracted.settled d mem).tabled
  have known : (StubUnit.mk m.name (m.typesToStub.map (⟨·, Descriptor.permissiveType⟩))
      (plain ++ promises)).aliasNames = m.typesToStub := by
    simp [StubUnit.aliasNames, Function.comp_def]
  have functions := answersFor_of_stubs known (fun d mem => .inl mem) first
  have asyncFunctions := answersFor_of_stubs known (fun d mem => .inr (.inl mem)) second
  refine ⟨_, plain, promises, done, rfl, functions, asyncFunctions, ?_⟩
  rw [List.forall_mem_append, List.forall_mem_append, StubUnit.forall_answers_iff functions,
    StubUnit.forall_answers_iff asyncFunctions]

end Definition

structure Extractor.Answered (x : Extractor) (answer : Int → Signature) : Prop where
  forgets : x.box.settings.cacheLookups = false
  reply : ∀ before offset, x.box.requestResult x.source.path offset
    (x.box.tool before (.request x.source.path offset)) = .ok (.ok (answer offset))

def draftAt (offset : Int) : Draft := .declared (some "f") (.elsewhere (some offset))

theorem Extractor.outcome_settle_of_answered {x : Extractor} {answer : Int → Signature}
    (answered : x.Answered answer) (label : String) (offsets : List Int) (s : Session) :
    ∃ t, (x.settle label (offsets.map draftAt)).outcome s =
      (.ok (offsets.map fun offset => ⟨some "f", answer offset⟩), t) := by
  induction offsets generalizing s with
  | nil => exact ⟨s, rfl⟩
  | cons offset offsets ih =>
    obtain ⟨t, asked, -⟩ := x.box.outcome_request x.source.path offset s
    rw [answered.reply s.calls offset] at asked
    obtain ⟨u, others⟩ := ih t
    have settled : (x.settleBody label (.elsewhere (some offset))).outcome s =
        (.ok (answer offset), t) := by
      rw [settleBody, Toolbox.resolve, Toolbox.lookup_of_not_keeps answered.forgets,
        Action.outcome_bind_of_ok asked]
      rfl
    refine ⟨u, ?_⟩
    rw [List.map_cons, draftAt, settle, Action.outcome_bind_of_ok settled,
      Action.outcome_bind_of_ok others]
    rfl

namespace Definition

def resultNode (label : String) (offset : Nat) : Node :=
  ⟨none, none, some label, none, none,
    [⟨none, none, none, some 0, some 1, []⟩, ⟨none, none, none, some offset, none, []⟩]⟩

def resultRoot : List Node := [resultNode Label.function 0, resultNode Label.asyncFunction 1]

def resultText (type : List Char) : String :=
  String.ofList (CursorInfo.tagged "decl.function.free"
    (CursorInfo.tagged "decl.function.returntype" type))

def resultXml (type : List Char) : Xml :=
  .element "decl.function.free" [.element "decl.function.returntype" [.text (String.ofList type)]]

def ReadsAsResult (type : List Char) : Prop :=
  Text.isBlankText (resultText type) = false ∧
    Xml.parse? (resultText type) = some (resultXml type)

def resultTool (types : Int → List Char) : Tool
  | _, .request _ offset =>
    .output (some (Json.text (Json.indented 2)
      (.obj [(CursorInfo.annotationKey, .str (resultText (types offset)))])))
  | _, .tree _ => .missing

def resultExtractor (types : Int → List Char) : Extractor :=
  ⟨{ tool := resultTool types, settings := {} }, ⟨⟨.relative, ["M.swift"]⟩, "f"⟩⟩

theorem answered_resultExtractor {types : Int → List Char}
    (legible : ∀ offset, ReadsAsResult (types offset)) :
    (resultExtractor types).Answered fun offset =>
      CursorInfo.ofXml (resultXml (types offset)) := by
  refine ⟨rfl, fun before offset => ?_⟩
  have textual : Json.Textual
      (.obj [(CursorInfo.annotationKey, .str (resultText (types offset)))]) :=
    .obj (List.nodup_singleton _) (List.forall_mem_singleton.mpr (Wording.joined_ofString _))
      (List.forall_mem_singleton.mpr (.str (Wording.joined_ofString _)))
  have heard := @Json.read_text _ (Json.Style.blank_indented 2) _ textual "" (by simp)
  rw [String.append_empty] at heard
  have filled : (Wording.ofString (resultText (types offset))).all CursorInfo.isBlank = false := by
    rw [Wording.ofString, List.all_map]
    exact (legible offset).1
  have annotated : CursorInfo.annotation?
      [(CursorInfo.annotationKey, .str (resultText (types offset)))] =
        some (Wording.ofString (resultText (types offset))) := by
    simp only [CursorInfo.annotation?, Json.lookup, Json.str?, List.find?_cons_of_pos,
      Option.map_some, Option.bind_some, Option.filter, filled, decide_true, Bool.not_false,
      if_true]
  have described := CursorInfo.signature_of_described annotated (legible offset).2
  have said : (resultExtractor types).box.read "request" ((resultExtractor types).box.tool before
      (.request (resultExtractor types).source.path offset)) = .ok (.ok
        (.obj [(CursorInfo.annotationKey, .str (resultText (types offset)))])) := by
    change Toolbox.read _ _ (.output (some _)) = _
    rw [Toolbox.read, heard]
  rw [Toolbox.requestResult, said]
  simp only [Toolbox.infoResult, Json.fields?, described]

def resultModule (types : Int → List Char) : Definition :=
  { name := "M"
    functions := [⟨some "f", CursorInfo.ofXml (resultXml (types 0))⟩]
    asyncFunctions := [⟨some "f", CursorInfo.ofXml (resultXml (types 1))⟩] }

def resultLines? (m : Definition) : Option (List (Bool × Wording × Option Wording)) :=
  m.unit.toOption.map fun u => u.functions.map fun f => (f.isAsync, f.returnType, f.returnValue)

theorem named_resultNode (types : Int → List Char) (label : String) (offset : Nat) :
    Draft.named (resultExtractor types).source (resultNode label offset) = draftAt offset := by
  have given : (resultExtractor types).source.givenText? (resultNode label offset) = some "f" := by
    change Source.readableText? ⟨⟨.relative, ["M.swift"]⟩, "f"⟩
      ⟨none, none, none, some 0, some 1, []⟩ = some "f"
    decide +kernel
  rw [Draft.named_of_some given]
  rfl

theorem extracted_resultModule {types : Int → List Char}
    (legible : ∀ offset, ReadsAsResult (types offset)) :
    (resultModule types).Extracted := by
  let x := resultExtractor types
  have answered : x.Answered fun offset => CursorInfo.ofXml (resultXml (types offset)) :=
    answered_resultExtractor legible
  have plain : namedDrafts x.source Label.function resultRoot = [0].map draftAt :=
    congrArg (fun draft => [draft]) (named_resultNode types Label.function 0)
  have promises : namedDrafts x.source Label.asyncFunction resultRoot = [1].map draftAt :=
    congrArg (fun draft => [draft]) (named_resultNode types Label.asyncFunction 1)
  let s : Session := Session.add (.logged ⟨Extractor.stage, .debug,
    s!"Extracting module definition from {x.source.path.text}"⟩) {}
  have called : (x.moduleName resultRoot (some "M")).outcome s = (.ok "M", s) := rfl
  obtain ⟨t, functions⟩ := Extractor.outcome_settle_of_answered answered Label.function [0] s
  obtain ⟨u, asyncFunctions⟩ :=
    Extractor.outcome_settle_of_answered answered Label.asyncFunction [1] t
  rw [← plain, ← Extractor.named] at functions
  rw [← promises, ← Extractor.named] at asyncFunctions
  have surface : (x.surface resultRoot (some "M")).outcome {} = (.ok (resultModule types), u) := by
    rw [Extractor.surface, Action.outcome_bind_of_ok (Action.outcome_log _ _ _ _),
      Action.outcome_bind_of_ok called, Action.outcome_bind_of_ok functions,
      Action.outcome_bind_of_ok asyncFunctions]
    rfl
  exact extracted_of_surface rfl surface

theorem readsAsResult_iff (type : List Char) :
    ReadsAsResult type ↔
      (resultText type).toList.all Text.isBlank = false ∧
        Xml.parseChars? (resultText type).toList = some (resultXml type) := Iff.rfl

theorem exists_of_resultLines? {types : Int → List Char}
    {lines : List (Bool × Wording × Option Wording)}
    (legible : ∀ offset, ReadsAsResult (types offset))
    (shown : resultLines? (resultModule types) = some lines) :
    ∃ u, (resultModule types).Extracted ∧ (resultModule types).unit = .ok u ∧
      u.functions.map (fun f => (f.isAsync, f.returnType, f.returnValue)) = lines := by
  obtain ⟨u, unit, printed⟩ := Option.map_eq_some_iff.mp shown
  exact ⟨u, extracted_resultModule legible, eq_ok_of_toOption unit, printed⟩

def listOrUser (offset : Int) : List Char :=
  if offset = 0 then "[[Int]]".toList else "User".toList

theorem list_and_alias_answered : ∃ u, (resultModule listOrUser).Extracted ∧
    (resultModule listOrUser).unit = .ok u ∧
    u.functions.map (fun f => (f.isAsync, f.returnType, f.returnValue)) =
      [(false, Wording.ofString "number[][]", some (Wording.ofString "[]")),
        (true, Wording.ofString "Promise<User>", some (Wording.ofString "null"))] ∧
    ∀ f ∈ u.functions, u.Answers f := by
  have legible : ∀ offset, ReadsAsResult (listOrUser offset) := by
    intro offset
    unfold listOrUser
    split
    all_goals
      rw [readsAsResult_iff, resultText, String.toList_ofList]
      decide +kernel
  obtain ⟨u, extracted, unit, printed⟩ := exists_of_resultLines? legible
    (show _ = some [(false, Wording.ofString "number[][]", some (Wording.ofString "[]")),
        (true, Wording.ofString "Promise<User>", some (Wording.ofString "null"))] by
      decide +kernel)
  obtain ⟨v, plain, promises, made, -, -, -, answers⟩ :=
    stub_results_answer_iff (resultModule listOrUser) extracted
  rw [unit] at made
  cases made
  refine ⟨u, extracted, unit, printed, answers.mpr fun d mem disguised => ?_⟩
  have types : ((resultModule listOrUser).functions ++ (resultModule listOrUser).asyncFunctions).map
      (·.signature.result) = [.array (.array (.primitive "Int")), .reference "User"] := by
    decide +kernel
  have listed := List.mem_map_of_mem mem (f := (·.signature.result))
  rw [types] at listed
  obtain ⟨name, reference, taken⟩ := disguised
  rw [reference] at listed
  obtain rfl : name = Wording.ofString "User" := by simpa using listed
  rcases taken with keyword | ⟨element, list⟩
  · exact absurd keyword (by decide)
  · have ends := congrArg List.getLast? list
    simp [Wording.ofString] at ends

/-- A type that is called like a keyword is printed as the keyword, of which null is no value. -/
theorem keyword_answered_with_null : ∃ (m : Definition) (u : StubUnit), m.Extracted ∧
    m.unit = .ok u ∧
    u.functions.map (fun f => (f.isAsync, f.returnType, f.returnValue)) =
      [(false, Wording.ofString "string", some (Wording.ofString "null")),
        (true, Wording.ofString "Promise<string>", some (Wording.ofString "null"))] ∧
    ¬ ∀ f ∈ u.functions, u.Answers f := by
  have legible : ∀ offset : Int, ReadsAsResult "string".toList := by
    intro offset
    rw [readsAsResult_iff, resultText, String.toList_ofList]
    decide +kernel
  obtain ⟨u, extracted, unit, printed⟩ := exists_of_resultLines? legible
    (show _ = some [(false, Wording.ofString "string", some (Wording.ofString "null")),
        (true, Wording.ofString "Promise<string>", some (Wording.ofString "null"))] by
      decide +kernel)
  refine ⟨_, u, extracted, unit, printed, fun answers => ?_⟩
  obtain ⟨f, rest, functions, shown, -⟩ := List.map_eq_cons_iff.mp printed
  simp only [Prod.mk.injEq] at shown
  obtain ⟨plain, type, value⟩ := shown
  have mem : f ∈ u.functions := by
    rw [functions]
    exact List.mem_cons_self
  obtain ⟨text, read, form, reads, admits⟩ := answers f mem
  rw [FunctionStub.resultText?, plain, type] at read
  cases read
  cases reads
  rw [value] at admits
  exact absurd (TypeForm.admits_null_iff.mp admits) nofun

end Definition

end ModuleStubs
