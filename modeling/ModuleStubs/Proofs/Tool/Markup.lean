import Mathlib.Data.List.Forall2
import Mathlib.Logic.Relation
import Mathlib.Tactic.SplitIfs
import ModuleStubs.Proofs.Text.Trimming
import ModuleStubs.Tool.CursorInfo

/-! Markup inside a described signature is not seen. What a function declares is read from the
direct children of its element and from the text below these, so that elements around parts of
a text and elements of other kinds beside the children make no difference. -/

namespace ModuleStubs

namespace Xml

/-- One change of mixed content that leaves its text as it is, at any depth: an element comes
around a part of the content, or a run of text is cut in two. -/
inductive Restyled : List Xml → List Xml → Prop
  | wrap (front : List Xml) (tag : String) (middle back : List Xml) :
    Restyled (front ++ middle ++ back) (front ++ .element tag middle :: back)
  | cut (front : List Xml) (a b : String) (back : List Xml) :
    Restyled (front ++ .text (a ++ b) :: back) (front ++ .text a :: .text b :: back)
  | inside (front : List Xml) (tag : String) {a b : List Xml} (step : Restyled a b)
    (back : List Xml) :
    Restyled (front ++ .element tag a :: back) (front ++ .element tag b :: back)

/-- One change of content in which elements with some tags are read: an item of another kind
comes in beside them, or an element changes inside in a way that its tag allows. -/
inductive Edit (tags : List String) (Inner : String → List Xml → List Xml → Prop) :
    List Xml → List Xml → Prop
  | beside (front : List Xml) {other : Xml} (unrelated : ∀ tag ∈ tags, other.hasTag tag = false)
    (back : List Xml) : Edit tags Inner (front ++ back) (front ++ other :: back)
  | inside (front : List Xml) {tag : String} {a b : List Xml} (step : Inner tag a b)
    (back : List Xml) :
    Edit tags Inner (front ++ .element tag a :: back) (front ++ .element tag b :: back)

theorem Restyled.contentText_eq {a b : List Xml} (step : Restyled a b) :
    contentText a = contentText b := by
  induction step with
  | wrap front tag middle back =>
    simp only [contentText_append, contentText, allText, String.append_assoc]
  | cut front a b back =>
    simp only [contentText_append, contentText, allText, String.append_assoc]
  | inside front tag step back ih =>
    simp only [contentText_append, contentText, allText, ih]

section

variable {α : Type} {tags : List String} {Inner : String → List Xml → List Xml → Prop}
  {tag : String} {f : Xml → α} {a b : List Xml}

theorem Edit.map_tagged (step : Edit tags Inner a b) (read : tag ∈ tags)
    (keeps : ∀ a b, Inner tag a b → f (.element tag a) = f (.element tag b)) :
    (a.filter (hasTag tag)).map f = (b.filter (hasTag tag)).map f := by
  cases step with
  | beside front unrelated back =>
    rw [List.filter_append, List.filter_append,
      List.filter_cons_of_neg (by simp [unrelated tag read])]
  | @inside front other a b step back =>
    rw [List.filter_append, List.filter_append, List.map_append, List.map_append]
    refine congrArg _ ?_
    by_cases same : other = tag
    · subst same
      rw [List.filter_cons_of_pos (by simp [hasTag]), List.filter_cons_of_pos (by simp [hasTag]),
        List.map_cons, List.map_cons, keeps a b step]
    · rw [List.filter_cons_of_neg (by simp [hasTag, same]),
        List.filter_cons_of_neg (by simp [hasTag, same])]

theorem Edit.map_child? (step : Edit tags Inner a b) (read : tag ∈ tags)
    (keeps : ∀ a b, Inner tag a b → f (.element tag a) = f (.element tag b)) (outer : String) :
    ((Xml.element outer a).child? tag).map f = ((Xml.element outer b).child? tag).map f := by
  have views := congrArg List.head? (step.map_tagged read keeps)
  rwa [List.head?_map, List.head?_map, List.head?_filter, List.head?_filter] at views

end

end Xml

namespace CursorInfo

/-- What an element spells: the text below it without the blanks around it, and nothing where it
is absent or has no other text. -/
inductive Spells : Option Xml → Option String → Prop
  | absent : Spells none none
  | blank {x : Xml} (h : ∀ c ∈ x.allText.toList, Text.isBlank c = true) : Spells (some x) none
  | text {x : Xml} {inner : List Char} (trimmed : Text.Trimmed x.allText.toList inner)
    (nonempty : inner ≠ []) : Spells (some x) (some (String.ofList inner))

def SpellsType (element : Option Xml) (type : Descriptor) : Prop :=
  ∃ name : Option String, Spells element name ∧ type = Descriptor.ofName (name.map Wording.ofString)

/-- What a parameter is called: its label, or its name where the label is absent, blank or an
underscore. -/
inductive SpellsLabel (x : Xml) : Option String → Prop
  | label {s : String} (spelled : Spells (x.child? "decl.var.parameter.argument_label") (some s))
    (named : s ≠ "_") : SpellsLabel x (some s)
  | name {label name : Option String}
    (unnamed : Spells (x.child? "decl.var.parameter.argument_label") label)
    (given : label = none ∨ label = some "_")
    (spelled : Spells (x.child? "decl.var.parameter.name") name) : SpellsLabel x name

structure Describes (x : Xml) (p : Parameter) : Prop where
  label : ∃ name : Option String, SpellsLabel x name ∧ p.name = name.map Wording.ofString
  type : SpellsType (x.child? "decl.var.parameter.type") p.type

theorem elementText_eq (element : Option Xml) :
    elementText element = ((element.map Xml.allText).map Text.trim).filter (· ≠ "") := by
  rw [Option.map_map]
  rfl

theorem spells_elementText (element : Option Xml) : Spells element (elementText element) := by
  cases element with
  | none => exact .absent
  | some x =>
    have trimmed := Text.trimmed_trimChars x.allText.toList
    by_cases blank : Text.trimChars x.allText.toList = []
    · have nothing : elementText (some x) = none := by simp [elementText, Text.trim, blank]
      rw [nothing]
      rw [blank] at trimmed
      obtain ⟨front, back, parts, before, after⟩ := trimmed.around
      refine .blank fun c mem => ?_
      rw [parts, List.append_nil, List.mem_append] at mem
      exact mem.elim (before c) (after c)
    · have spoken : elementText (some x) =
          some (String.ofList (Text.trimChars x.allText.toList)) := by
        simp [elementText, Text.trim, blank]
      rw [spoken]
      exact .text trimmed blank

theorem spellsType_elementType (element : Option Xml) : SpellsType element (elementType element) :=
  ⟨_, spells_elementText element, rfl⟩

theorem describes_parameter (x : Xml) : Describes x (parameter x) := by
  refine ⟨⟨parameterLabel x, ?_, rfl⟩, spellsType_elementType _⟩
  have label := spells_elementText (x.child? "decl.var.parameter.argument_label")
  have name := spells_elementText (x.child? "decl.var.parameter.name")
  unfold parameterLabel
  split
  · next s found =>
    rw [found] at label
    split_ifs with underscore
    · exact .name label (.inr (congrArg some underscore)) name
    · exact .label label underscore
  · next found =>
    rw [found] at label
    exact .name label (.inl rfl) name

def partTags : List String :=
  ["decl.var.parameter.argument_label", "decl.var.parameter.name", "decl.var.parameter.type"]

/-- One change inside a parameter: beside its parts, or in the markup inside one of them. -/
def ParameterEdit : List Xml → List Xml → Prop := Xml.Edit partTags fun _ => Xml.Restyled

def FunctionEdit : List Xml → List Xml → Prop :=
  Xml.Edit ["decl.var.parameter", "decl.function.returntype"] fun tag =>
    if tag = "decl.var.parameter" then ParameterEdit else Xml.Restyled

inductive Remark : Xml → Xml → Prop
  | edit (tag : String) {a b : List Xml} (step : FunctionEdit a b) :
    Remark (.element tag a) (.element tag b)

def Remarked : Xml → Xml → Prop := Relation.EqvGen Remark

theorem elementText_congr {a b : Option Xml} (same : a.map Xml.allText = b.map Xml.allText) :
    elementText a = elementText b := by
  rw [elementText_eq, elementText_eq, same]

theorem ParameterEdit.parameter_eq {a b : List Xml} (step : ParameterEdit a b) (outer : String) :
    parameter (.element outer a) = parameter (.element outer b) := by
  have part : ∀ tag ∈ partTags, elementText ((Xml.element outer a).child? tag) =
      elementText ((Xml.element outer b).child? tag) := by
    intro tag read
    refine elementText_congr (Xml.Edit.map_child? step read (fun a b inside => ?_) outer)
    rw [Xml.allText, Xml.allText, inside.contentText_eq]
  unfold parameter parameterLabel elementType
  rw [part "decl.var.parameter.argument_label" (by decide),
    part "decl.var.parameter.name" (by decide), part "decl.var.parameter.type" (by decide)]

theorem FunctionEdit.ofXml_eq {a b : List Xml} (step : FunctionEdit a b) (outer : String) :
    ofXml (.element outer a) = ofXml (.element outer b) := by
  have parameters : ((Xml.element outer a).childrenTagged "decl.var.parameter").map parameter =
      ((Xml.element outer b).childrenTagged "decl.var.parameter").map parameter := by
    refine Xml.Edit.map_tagged step (by decide) fun a b inside => ?_
    rw [if_pos rfl] at inside
    exact inside.parameter_eq _
  have result : elementText ((Xml.element outer a).child? "decl.function.returntype") =
      elementText ((Xml.element outer b).child? "decl.function.returntype") := by
    refine elementText_congr (Xml.Edit.map_child? step (by decide) (fun a b inside => ?_) outer)
    rw [if_neg (by decide)] at inside
    rw [Xml.allText, Xml.allText, inside.contentText_eq]
  unfold ofXml elementType
  rw [parameters, result]
  rfl

theorem Remarked.ofXml_eq {x y : Xml} (steps : Remarked x y) : ofXml x = ofXml y := by
  have same := eq_equivalence.comap ofXml
  refine same.eqvGen_iff.mp (steps.mono fun a b step => ?_)
  cases step with
  | edit tag step => exact step.ofXml_eq tag

theorem signature_of_described {fields : List (Wording × Json)} {text : String} {x : Xml}
    (annotated : annotation? fields = some (Wording.ofString text))
    (read : Xml.parse? text = some x) : signature fields = .ok (ofXml x) := by
  unfold signature
  rw [annotated]
  simp only [Wording.text_ofString, read]

def unlabelled (type : List Xml) : Xml :=
  .element "decl.var.parameter"
    [.element "decl.var.parameter.argument_label" [.text "_"],
      .element "decl.var.parameter.name" [.text "done"],
      .element "decl.var.parameter.type" type]

def declared (before type : List Xml) : Xml :=
  .element "decl.function.free" (before ++ [unlabelled type])

def plain : Xml := declared [] [.text "(Int)"]

def marked : Xml :=
  declared [.element "decl.name" [.text "run"]]
    [.text "(", .element "decl.var.parameter" [.text "Int"], .text ")"]

def tagged (tag : String) (inner : List Char) : List Char :=
  '<' :: tag.toList ++ '>' :: inner ++ "</".toList ++ tag.toList ++ ['>']

def markedText : List Char :=
  tagged "decl.function.free" (tagged "decl.name" "run".toList ++ tagged "decl.var.parameter"
    (tagged "decl.var.parameter.argument_label" ['_'] ++
      tagged "decl.var.parameter.name" "done".toList ++
      tagged "decl.var.parameter.type" ('(' :: tagged "decl.var.parameter" "Int".toList ++ [')'])))

theorem remarked_type (before : List Xml) {a b : List Xml} (step : Xml.Restyled a b) :
    Remarked (declared before a) (declared before b) := by
  have part : ParameterEdit (unlabelled a).content (unlabelled b).content :=
    .inside [.element "decl.var.parameter.argument_label" [.text "_"],
      .element "decl.var.parameter.name" [.text "done"]] step []
  exact .rel _ _ (.edit _ (.inside before part []))

theorem remarked_plain : Remarked plain marked := by
  have beside : Remarked plain (declared [.element "decl.name" [.text "run"]] [.text "(Int)"]) :=
    .rel _ _ (.edit _ (.beside [] (by decide) _))
  refine beside.trans _ _ _ (.trans _ _ _ (remarked_type _ (.cut [] "(" "Int)" [])) ?_)
  refine .trans _ _ _ (remarked_type _ (.cut [.text "("] "Int" ")" [])) ?_
  exact remarked_type _ (.wrap [.text "("] "decl.var.parameter" [.text "Int"] [.text ")"])

end CursorInfo

end ModuleStubs
