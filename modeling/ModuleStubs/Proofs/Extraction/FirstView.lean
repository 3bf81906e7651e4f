import Mathlib.Logic.Relation
import ModuleStubs.Proofs.Extraction.Nesting
import ModuleStubs.Proofs.Text.Trimming

/-! The view of a module is what the extraction of the body of its first view gives, read
after everything else of the module, under the name that the first child of this view spells.
No other view has a part in the definition, neither one that comes later nor one inside that
body. -/

namespace ModuleStubs

namespace Diagnostic

def viewWarningStart : Wording := Wording.ofString "Could not parse view definition"

def isViewWarning (d : Diagnostic) : Bool :=
  d.severity = .warning && viewWarningStart.isPrefixOf d.message

theorem not_isViewWarning_of_start {d : Diagnostic} {start : String}
    (other : start.toList.head?.any (· ≠ 'C') = true)
    (starts : Wording.ofString start <+: d.message) : d.isViewWarning = false := by
  obtain ⟨rest, message⟩ := starts
  cases first : start.toList with
  | nil =>
    rw [first] at other
    cases other
  | cons c cs =>
    rw [first] at other
    rw [Wording.ofString, first] at message
    have apart : 'C' ≠ c := fun same => by simp [← same] at other
    rw [isViewWarning, ← message]
    simp [viewWarningStart, Wording.ofString, List.isPrefixOf, apart]

end Diagnostic

namespace Node

theorem viewBody_eq_ok_iff {n : Node} {body : List Node} :
    n.viewBody = .ok body ↔
      ∃ d, n.descend viewBodyWay = some d ∧ d.children ≠ [] ∧ d.children = body := by
  rw [viewBody]
  cases n.descend viewBodyWay with
  | none => simp
  | some d => cases below : d.children <;> simp [hasChildren, below]

theorem viewBody_eq_error {n : Node} {why : ViewFault} (fault : n.viewBody = .error why) :
    ∀ d, n.descend viewBodyWay = some d → d.children = [] := by
  intro d below
  by_contra filled
  have body := viewBody_eq_ok_iff.mpr ⟨d, below, filled, rfl⟩
  rw [fault] at body
  cases body

theorem viewBody_replaced {n : Node} {body nodes : List Node} (has : n.viewBody = .ok body)
    (filled : nodes ≠ []) :
    (n.alterBelow (fun _ => nodes) viewBodyWay).viewBody = .ok nodes := by
  obtain ⟨d, below, -, -⟩ := viewBody_eq_ok_iff.mp has
  refine viewBody_eq_ok_iff.mpr ⟨{ d with children := nodes }, ?_, filled, rfl⟩
  rw [descend_alterBelow, below]
  rfl

end Node

/-- How a view names itself: its first child covers a text, and what this text holds between the
blanks around it is the name, without `.self` at its end, if there is anything left. -/
inductive NamesView (s : Source) (n : Node) : Option String → Prop
  | silent (uncovered : ∀ c, n.child? 0 = some c → s.textAt? c.offset c.length = none) :
    NamesView s n none
  | plain {c : Node} {text name : String} (first : n.child? 0 = some c)
    (covers : s.textAt? c.offset c.length = some text)
    (trimmed : Text.Trimmed text.toList name.toList) (typeless : ¬ ".self".toList <:+ name.toList)
    (filled : name ≠ "") : NamesView s n (some name)
  | ofType {c : Node} {text name : String} (first : n.child? 0 = some c)
    (covers : s.textAt? c.offset c.length = some text)
    (trimmed : Text.Trimmed text.toList (name ++ ".self").toList) (filled : name ≠ "") :
    NamesView s n (some name)
  | nameless {c : Node} {text inner : String} (first : n.child? 0 = some c)
    (covers : s.textAt? c.offset c.length = some text)
    (trimmed : Text.Trimmed text.toList inner.toList) (nothing : inner = "" ∨ inner = ".self") :
    NamesView s n none

theorem withoutSelf_append (cs : List Char) : withoutSelf (cs ++ ".self".toList) = cs := by
  rw [withoutSelf, List.reverse_append, Text.after?_append]
  exact List.reverse_reverse cs

theorem withoutSelf_of_typeless {cs : List Char} (typeless : ¬ ".self".toList <:+ cs) :
    withoutSelf cs = cs := by
  rw [withoutSelf]
  cases found : Text.after? ".self".toList.reverse cs.reverse with
  | none => rfl
  | some rest =>
    have ends := congrArg List.reverse (Text.eq_append_of_after? found)
    rw [List.reverse_append, List.reverse_reverse, List.reverse_reverse] at ends
    exact absurd ⟨rest.reverse, ends.symm⟩ typeless

theorem viewName?_of_covers {s : Source} {n c : Node} {text : String} (first : n.child? 0 = some c)
    (covers : s.textAt? c.offset c.length = some text) :
    viewName? s n =
      (some (String.ofList (withoutSelf (Text.trimChars text.toList)))).filter (· ≠ "") := by
  have unnamed : ∀ name : String, (if name = "" then none else some name) =
      (some name).filter (· ≠ "") := by
    intro name
    by_cases empty : name = "" <;> simp [Option.filter, empty]
  rw [viewName?, first, ← unnamed]
  by_cases empty : text = ""
  · subst empty
    have readable : s.readableText? c = none := by
      simp [Source.readableText?, covers, Option.filter]
    rw [Option.bind_some, readable]
    rfl
  · have readable : s.readableText? c = some text := by
      simp [Source.readableText?, covers, Option.filter, empty]
    rw [Option.bind_some, readable]
    rfl

theorem namesView_of_covers {s : Source} {n c : Node} {text : String} (first : n.child? 0 = some c)
    (covers : s.textAt? c.offset c.length = some text) : NamesView s n (viewName? s n) := by
  obtain ⟨inner, whole⟩ : ∃ inner : String, Text.trimChars text.toList = inner.toList :=
    ⟨String.ofList (Text.trimChars text.toList), String.toList_ofList.symm⟩
  have trimmed := Text.trimmed_trimChars text.toList
  rw [whole] at trimmed
  rw [viewName?_of_covers first covers, whole]
  by_cases suffix : ".self".toList <:+ inner.toList
  · obtain ⟨base, split⟩ := suffix
    have parts : inner = String.ofList base ++ ".self" := by
      rw [← String.toList_inj, ← split, String.toList_append, @String.toList_ofList base]
    rw [← split, withoutSelf_append]
    by_cases empty : String.ofList base = ""
    · rw [empty, String.empty_append] at parts
      simpa [Option.filter, empty] using NamesView.nameless first covers trimmed (.inr parts)
    · rw [parts] at trimmed
      simpa [Option.filter, empty] using NamesView.ofType first covers trimmed empty
  · rw [withoutSelf_of_typeless suffix, String.ofList_toList]
    by_cases empty : inner = ""
    · simpa [Option.filter, empty] using NamesView.nameless first covers trimmed (.inl empty)
    · simpa [Option.filter, empty] using NamesView.plain first covers trimmed suffix empty

/-- A view has exactly one such name, the one its body is read under. -/
theorem namesView_iff {s : Source} {n : Node} {name : Option String} :
    NamesView s n name ↔ name = viewName? s n := by
  have unreadable : (∀ c, n.child? 0 = some c → s.textAt? c.offset c.length = none) →
      viewName? s n = none := by
    intro uncovered
    rw [viewName?]
    cases first : n.child? 0 with
    | none => rfl
    | some c => simp [Source.readableText?, uncovered c first]
  constructor
  · intro names
    cases names with
    | silent uncovered => exact (unreadable uncovered).symm
    | plain first covers trimmed typeless filled =>
      rw [viewName?_of_covers first covers, ← trimmed.eq_trimChars,
        withoutSelf_of_typeless typeless]
      simp [Option.filter, filled]
    | ofType first covers trimmed filled =>
      rw [viewName?_of_covers first covers, ← trimmed.eq_trimChars, String.toList_append,
        withoutSelf_append]
      simp [Option.filter, filled]
    | nameless first covers trimmed nothing =>
      rw [viewName?_of_covers first covers, ← trimmed.eq_trimChars]
      rcases nothing with rfl | rfl
      · decide
      · decide
  · rintro rfl
    by_cases uncovered : ∀ c, n.child? 0 = some c → s.textAt? c.offset c.length = none
    · rw [unreadable uncovered]
      exact .silent uncovered
    · push Not at uncovered
      obtain ⟨c, first, covered⟩ := uncovered
      obtain ⟨text, covers⟩ := Option.ne_none_iff_exists'.mp covered
      exact namesView_of_covers first covers

def withoutViews (nodes : List Node) : List Node :=
  nodes.filter fun n => n.name ≠ some (Wording.ofString Label.view)

theorem labelled_withoutViews {label : String} (other : label ≠ Label.view) (nodes : List Node) :
    labelled label (withoutViews nodes) = labelled label nodes := by
  unfold labelled withoutViews
  rw [List.filter_filter]
  refine List.filter_congr fun n _ => ?_
  by_cases has : n.name = some (Wording.ofString label)
  · simp [has, other]
  · simp [has]

theorem labelled_congr {a b : List Node} (same : withoutViews a = withoutViews b) {label : String}
    (other : label ≠ Label.view) : labelled label a = labelled label b := by
  rw [← labelled_withoutViews other a, same, labelled_withoutViews other b]

theorem withoutViews_append (a b : List Node) :
    withoutViews (a ++ b) = withoutViews a ++ withoutViews b := List.filter_append ..

theorem withoutViews_cons_view {n : Node} (view : n.name = some (Wording.ofString Label.view))
    (rest : List Node) : withoutViews (n :: rest) = withoutViews rest :=
  List.filter_cons_of_neg (by simp [view])

theorem viewNode?_append {front : List Node}
    (viewless : ∀ k ∈ front, k.name ≠ some (Wording.ofString Label.view)) {n : Node}
    (view : n.name = some (Wording.ofString Label.view)) (rest : List Node) :
    viewNode? (front ++ n :: rest) = some n := by
  have none : front.find? (fun k => k.name = some (Wording.ofString Label.view)) = none :=
    List.find?_eq_none.mpr fun k mem => by simpa using viewless k mem
  rw [viewNode?, List.find?_append, none, Option.none_or, List.find?_cons_of_pos (by simp [view])]

/-- A change of views that a module does not show: views after the first one may be others,
more or fewer, and so may the views in its body, as long as the body is not left empty. -/
inductive ViewEdit : List Node → List Node → Prop
  | later {front : List Node} {n : Node} {rest other : List Node}
    (viewless : ∀ k ∈ front, k.name ≠ some (Wording.ofString Label.view))
    (view : n.name = some (Wording.ofString Label.view))
    (same : withoutViews rest = withoutViews other) :
    ViewEdit (front ++ n :: rest) (front ++ n :: other)
  | inner {front : List Node} {n : Node} {rest body nodes : List Node}
    (viewless : ∀ k ∈ front, k.name ≠ some (Wording.ofString Label.view))
    (view : n.name = some (Wording.ofString Label.view))
    (has : n.viewBody = .ok body) (filled : nodes ≠ [])
    (same : withoutViews body = withoutViews nodes) :
    ViewEdit (front ++ n :: rest)
      (front ++ n.alterBelow (fun _ => nodes) viewBodyWay :: rest)

theorem ViewEdit.withoutViews_eq {a b : List Node} (edit : ViewEdit a b) :
    withoutViews a = withoutViews b := by
  cases edit with
  | later viewless view same =>
    rw [withoutViews_append, withoutViews_append, withoutViews_cons_view view,
      withoutViews_cons_view view, same]
  | @inner front n rest body nodes viewless view has filled same =>
    have altered : (n.alterBelow (fun _ => nodes) viewBodyWay).name =
        some (Wording.ofString Label.view) := by
      rw [Node.name_alterBelow, view]
    rw [withoutViews_append, withoutViews_append, withoutViews_cons_view view,
      withoutViews_cons_view altered]

namespace Extractor

variable (x : Extractor)

def viewNote (why : ViewFault) : Diagnostic :=
  ⟨.warning, s!"Could not parse view definition: {why.message}", some x.source.path⟩

theorem isViewWarning_viewNote (why : ViewFault) : (x.viewNote why).isViewWarning = true := by
  have starts : Diagnostic.viewWarningStart <+: (x.viewNote why).message := by
    simp only [viewNote, Wording.ofString_append]
    refine List.IsPrefix.trans ?_ (List.prefix_append _ _)
    decide
  rw [Diagnostic.isViewWarning, List.isPrefixOf_iff_prefix.mpr starts]
  rfl

section

variable {x} {label : String} (other : label.toList.head?.any (· ≠ 'C') = true)
include other

theorem BodyTold.no_viewWarning {before : List Call} {body : Body} {signature : Signature}
    {tale : Tale} (told : x.BodyTold label before body signature tale) :
    tale.notes.filter Diagnostic.isViewWarning = [] := by
  have quiet : ∀ d : Diagnostic, Wording.ofString label <+: d.message →
      [d].filter Diagnostic.isViewWarning = [] := by
    intro d starts
    simp [Diagnostic.not_isViewWarning_of_start other starts]
  cases told with
  | absent =>
    refine quiet _ ?_
    simp only [bodilessNote, Wording.ofString_append]
    exact List.prefix_append _ _
  | shapeless offset =>
    refine quiet _ ?_
    simp only [shapelessNote, Wording.ofString_append, List.append_assoc]
    exact List.prefix_append _ _
  | closure signature => rfl
  | placeless => rfl
  | found given => cases given <;> rfl
  | lost given => rfl

theorem DraftsTold.no_viewWarning {before : List Call} {drafts : List Draft}
    {ds : List Declaration} {tale : Tale} (told : x.DraftsTold label before drafts ds tale) :
    tale.notes.filter Diagnostic.isViewWarning = [] := by
  induction told with
  | nil => rfl
  | @nameless before offset drafts ds tale rest ih =>
    have starts : Wording.ofString label <+: (x.namelessNote label offset).message := by
      simp only [namelessNote, Wording.ofString_append, List.append_assoc]
      exact List.prefix_append _ _
    rw [Tale.notes_append, List.filter_append, ih]
    simp [Diagnostic.not_isViewWarning_of_start other starts]
  | declared first rest ih =>
    rw [Tale.notes_append, List.filter_append, ih, first.no_viewWarning other]
    rfl

end

variable {x} in
theorem SurfaceTold.no_viewWarning {root : List Node} {defaultName : Option String}
    {before : List Call} {m : Definition} {t : GroupTales}
    (told : x.SurfaceTold root defaultName before m t) :
    t.all.notes.filter Diagnostic.isViewWarning = [] := by
  obtain ⟨props, -, toldProps⟩ := told.props
  have name : t.name.notes.filter Diagnostic.isViewWarning = [] := by
    have starts : Wording.ofString "Module" <+: x.stemNote.message := by
      simp only [stemNote, Wording.ofString_append]
      exact (List.prefix_append _ _).trans (List.prefix_append _ _)
    rw [told.nameTale]
    split_ifs
    · rfl
    · simp [Diagnostic.not_isViewWarning_of_start (by decide) starts]
  have events : t.events.notes.filter Diagnostic.isViewWarning = [] := by
    rw [told.eventsTale]
    refine List.filter_eq_nil_iff.mpr fun note mem => ?_
    obtain ⟨n, -, rfl⟩ := List.mem_map.mp mem
    have starts : Wording.ofString Label.events <+:
        (x.entryNote Label.events n.offset).message := by
      simp only [entryNote, Wording.ofString_append, List.append_assoc]
      exact List.prefix_append _ _
    simp [Diagnostic.not_isViewWarning_of_start (by decide) starts]
  simp only [GroupTales.all, Tale.notes_append, List.filter_append, name, events,
    told.functions.no_viewWarning (by decide), told.asyncFunctions.no_viewWarning (by decide),
    told.properties.no_viewWarning (by decide), toldProps.no_viewWarning (by decide),
    told.onCreate.no_viewWarning (by decide), List.append_nil]

/-- How the view of a module is read in a session: there is none among the nodes, or the first
one has no body, or it is extracted from that body like a module of its own. -/
inductive ViewRead (root : List Node) (s : Session) : Option Definition → Session → Prop
  | absent (viewless : ∀ n ∈ root, n.name ≠ some (Wording.ofString Label.view)) :
    ViewRead root s none s
  | bodiless {n : Node} {why : ViewFault} (first : viewNode? root = some n)
    (nothing : ∀ d, n.descend viewBodyWay = some d → d.children = []) :
    ViewRead root s none (s.add (.noted (x.viewNote why)))
  | read {n d : Node} {v : Definition} {t : Session} (first : viewNode? root = some n)
    (below : n.descend viewBodyWay = some d) (filled : d.children ≠ [])
    {name : Option String} (names : NamesView x.source n name)
    (given : (x.extract d.children name).outcome s = (.ok v, t)) :
    ViewRead root s (some { v with view := none }) t

variable {x} in
theorem viewRead_of_outcome {root : List Node} {s t : Session} {view : Option Definition}
    (done : (x.view root).outcome s = (.ok view, t)) : x.ViewRead root s view t := by
  rw [Extractor.view] at done
  cases first : viewNode? root with
  | none =>
    rw [ViewChain.ofRoot_of_none first, viewOf] at done
    cases done
    exact .absent fun n mem => by simpa using List.find?_eq_none.mp first n mem
  | some n =>
    cases below : n.viewBody with
    | error why =>
      rw [ViewChain.ofRoot_of_fault first below, viewOf] at done
      cases done
      exact .bodiless first (Node.viewBody_eq_error below)
    | ok body =>
      obtain ⟨d, found, filled, rfl⟩ := Node.viewBody_eq_ok_iff.mp below
      rw [ViewChain.ofRoot_of_body first below, viewOf] at done
      obtain ⟨v, middle, given, last⟩ := Action.outcome_bind_eq_ok.mp done
      cases last
      exact .read first found filled (namesView_iff.mpr rfl) given

/-- The props of a root as its nodes and the tool give them, each without the first of its
parameters and without those named as a view. -/
def PropsRead (root : List Node) (props : List Declaration) : Prop :=
  ∃ before ds tale, x.DraftsTold Label.prop before (namedDrafts x.source Label.prop root) ds tale ∧
    props = ds.map fun d => ⟨d.name, { d.signature with
      parameters := (d.signature.parameters.drop 1).filter fun p =>
        p.name ≠ some (Wording.ofString "view") }⟩

variable {x} in
theorem SurfaceTold.propsRead {root : List Node} {defaultName : Option String}
    {before : List Call} {m : Definition} {t : GroupTales}
    (told : x.SurfaceTold root defaultName before m t) : x.PropsRead root m.props := by
  obtain ⟨ds, same, toldProps⟩ := told.props
  refine ⟨_, ds, t.props, toldProps, ?_⟩
  rw [same]
  refine List.map_congr_left fun d _ => ?_
  rw [Declaration.withoutView, Signature.withoutView, withoutView, List.drop_one]

variable {x} in
theorem surface_of_extract {root : List Node} {defaultName : Option String} {s t : Session}
    {m : Definition} (done : (x.extract root defaultName).outcome s = (.ok m, t)) :
    ∃ own u told, (x.surface root defaultName).outcome s = (.ok own, u) ∧
      m = { own with view := m.view } ∧ s.Follows u told.all ∧
      x.SurfaceTold root defaultName s.calls own told ∧
      (x.view root).outcome u = (.ok m.view, t) := by
  rw [extract, chained] at done
  obtain ⟨own, u, surfaced, rest⟩ := Action.outcome_bind_eq_ok.mp done
  obtain ⟨view, v, viewed, last⟩ := Action.outcome_bind_eq_ok.mp rest
  cases last
  obtain ⟨tale, follows, ends⟩ := x.accounts_surface s root defaultName
  rw [surfaced] at follows ends
  obtain ⟨-, told, rfl, surface⟩ := ends
  exact ⟨own, u, told, surfaced, rfl, follows, surface, viewed⟩

/-- One edit of views is not seen before the views inside the view are read. -/
theorem extractOuter_of_viewEdit {a b : List Node} (edit : ViewEdit a b)
    (defaultName : Option String) :
    x.extractOuter a defaultName = x.extractOuter b defaultName := by
  have groups : ∀ label ∈ Label.ofGroups, labelled label a = labelled label b :=
    fun label mem => labelled_congr edit.withoutViews_eq (Label.ne_view_of_mem mem)
  rw [extractOuter, extractOuter, x.surface_congr defaultName groups, outerView, outerView]
  cases edit with
  | later viewless view same => rw [viewNode?_append viewless view, viewNode?_append viewless view]
  | @inner front n rest body nodes viewless view has filled same =>
    have altered : (n.alterBelow (fun _ => nodes) viewBodyWay).name =
        some (Wording.ofString Label.view) := by
      rw [Node.name_alterBelow, view]
    -- What is read of the body before its own view is the same with the other nodes.
    have inner : ∀ label ∈ Label.ofGroups, labelled label body = labelled label nodes :=
      fun label mem => labelled_congr same (Label.ne_view_of_mem mem)
    rw [viewNode?_append viewless view, viewNode?_append viewless altered]
    simp only [has, Node.viewBody_replaced has filled, viewName?_alterBelow,
      x.surface_congr _ inner]

theorem extractOuter_of_viewEdits {a b : List Node} (edits : Relation.EqvGen ViewEdit a b)
    (defaultName : Option String) :
    x.extractOuter a defaultName = x.extractOuter b defaultName := by
  have same := eq_equivalence.comap fun root => x.extractOuter root defaultName
  exact same.eqvGen_iff.mp (edits.mono fun _ _ edit => x.extractOuter_of_viewEdit edit defaultName)

/-- What the extraction of a module makes of its views, after the own declarations have been read
in a session `u`. -/
structure ViewAccount (root : List Node) (defaultName : Option String) (s : Session)
    (m : Definition) (t : Session) (own : Definition) (u : Session) : Prop where
  surface : (x.surface root defaultName).outcome s = (.ok own, u)
  whole : m = { own with view := m.view }
  quiet : ∃ notes, u.diagnostics = s.diagnostics ++ notes ∧
    notes.filter Diagnostic.isViewWarning = []
  view : x.ViewRead root u m.view t
  viewless_iff : m.view = none ↔ ∀ n d, viewNode? root = some n →
    n.descend viewBodyWay = some d → d.children = []
  warned : m.view = none → (viewNode? root).isSome →
    (t.diagnostics.filter Diagnostic.isViewWarning).length =
      (s.diagnostics.filter Diagnostic.isViewWarning).length + 1
  props : x.PropsRead root m.props
  viewProps : ∀ v, m.view = some v →
    ∃ body, viewBody? root = some body ∧ x.PropsRead body v.props

variable {x} in
theorem viewAccount_of_extract {root : List Node} {defaultName : Option String} {s t : Session}
    {m : Definition} (done : (x.extract root defaultName).outcome s = (.ok m, t)) :
    ∃ own u, x.ViewAccount root defaultName s m t own u := by
  obtain ⟨own, u, told, surfaced, whole, follows, surface, viewed⟩ := surface_of_extract done
  have quiet := surface.no_viewWarning
  have props : x.PropsRead root m.props := by
    rw [whole]
    exact surface.propsRead
  have read := viewRead_of_outcome viewed
  suffices told : (m.view = none ↔ ∀ n d, viewNode? root = some n →
      n.descend viewBodyWay = some d → d.children = []) ∧
      (m.view = none → (viewNode? root).isSome →
        (t.diagnostics.filter Diagnostic.isViewWarning).length =
          (s.diagnostics.filter Diagnostic.isViewWarning).length + 1) ∧
      ∀ v, m.view = some v → ∃ body, viewBody? root = some body ∧ x.PropsRead body v.props from
    ⟨own, u, surfaced, whole, ⟨_, follows.diagnostics, quiet⟩, read, told.1, told.2.1, props,
      told.2.2⟩
  generalize m.view = view at read
  cases read with
  | absent viewless =>
    have none : viewNode? root = none :=
      List.find?_eq_none.mpr fun n mem => by simpa using viewless n mem
    simp [none]
  | @bodiless n why first nothing =>
    refine ⟨?_, fun _ _ => ?_, by simp⟩
    · simp only [first, Option.some.injEq, true_iff]
      rintro n d rfl below
      exact nothing d below
    · rw [Session.diagnostics_add, follows.diagnostics, List.filter_append, List.filter_append,
        quiet]
      simp [Event.diagnostic?, x.isViewWarning_viewNote why]
  | @read n d v t first below filled name names given =>
    refine ⟨?_, by simp, ?_⟩
    · simp only [reduceCtorEq, false_iff]
      exact fun nothing => filled (nothing n d first below)
    · rintro _ ⟨⟩
      have body := viewBody?_of_ok first (Node.viewBody_eq_ok_iff.mpr ⟨d, below, filled, rfl⟩)
      obtain ⟨inner, _, _, -, same, -, innerSurface, -⟩ := surface_of_extract given
      refine ⟨d.children, body, ?_⟩
      rw [same]
      exact innerSurface.propsRead

/-- An extracted module has a view exactly if its first view has a body. The view is the module
that is extracted from this body once the own declarations of the module have been read, under
the name that the first child of the view spells, and its own view is left out. A first view
without a body leaves exactly one warning. Props are without their view once, in the module and
in its view. Other views can be edited in any way and leave the module as it is. -/
theorem extract_view_from_first_body (root : List Node) (defaultName : Option String) :
    (x.box.Readable → ∀ s, ∃ m t, (x.extract root defaultName).outcome s = (.ok m, t)) ∧
    (∀ s m t, (x.extract root defaultName).outcome s = (.ok m, t) →
      ∃ own u, x.ViewAccount root defaultName s m t own u) ∧
    ∀ other, Relation.EqvGen ViewEdit root other → ∀ s m t k u,
      (x.extract root defaultName).outcome s = (.ok m, t) →
      (x.extract other defaultName).outcome s = (.ok k, u) → m = k := by
  refine ⟨fun readable s => x.extract_returns readable root defaultName s,
    fun s m t done => viewAccount_of_extract done, fun other edits s m t k u doneA doneB => ?_⟩
  -- The views inside the view are read last and do not change what has been read.
  obtain ⟨middle, readA, -⟩ := outer_of_extract doneA
  obtain ⟨last, readB, -⟩ := outer_of_extract doneB
  rw [← x.extractOuter_of_viewEdits edits, readA] at readB
  cases readB
  rfl

def closureProp : Node :=
  let parameter (name : String) : Node :=
    ⟨some "source.lang.swift.decl.var.parameter", some "Int", some name, none, none, []⟩
  ⟨none, none, some Label.prop, none, none,
    [⟨none, none, none, some 1, some 1, []⟩,
      ⟨some "source.lang.swift.expr.closure", none, none, none, none,
        [parameter "host", parameter "size", parameter "view"]⟩]⟩

def typedExtractor : Extractor :=
  ⟨sampleExtractor.box, ⟨⟨.relative, ["M.swift"]⟩, "Mf V.self "⟩⟩

def typedView (body : List Node) : Node :=
  { viewWith body with
    children := ⟨none, none, none, some 2, some 8, []⟩ :: (viewWith body).children.tail }

theorem other_views_unseen :
    Relation.EqvGen ViewEdit [closureProp, typedView [closureProp]]
      [closureProp, typedView [viewWith [lookedUp], closureProp], viewWith [eventless]] ∧
    ∃ m t k u, (typedExtractor.extract [closureProp, typedView [closureProp]] (some "M")).outcome
        {} = (.ok m, t) ∧
      (typedExtractor.extract [closureProp, typedView [viewWith [lookedUp], closureProp],
        viewWith [eventless]] (some "M")).outcome {} = (.ok k, u) ∧ m = k ∧
      (m :: m.view.toList).map (fun d => (d.name, d.props.flatMap fun p =>
        p.signature.parameters.map (·.name))) =
        [("M", [some (Wording.ofString "size")]), ("V", [some (Wording.ofString "size")])] := by
  have readable : typedExtractor.box.Readable :=
    Toolbox.readable_of_missing fun _ _ => rfl
  have inner : ViewEdit [closureProp, typedView [closureProp]]
      [closureProp, typedView [viewWith [lookedUp], closureProp]] :=
    @ViewEdit.inner [closureProp] (typedView [closureProp]) [] [closureProp]
      [viewWith [lookedUp], closureProp] (by decide) rfl rfl (by simp) rfl
  have later : ViewEdit [closureProp, typedView [viewWith [lookedUp], closureProp]]
      [closureProp, typedView [viewWith [lookedUp], closureProp], viewWith [eventless]] :=
    @ViewEdit.later [closureProp] (typedView [viewWith [lookedUp], closureProp]) []
      [viewWith [eventless]] (by decide) rfl rfl
  have edits := Relation.EqvGen.trans _ _ _ (.rel _ _ inner) (.rel _ _ later)
  obtain ⟨returns, -, unseen⟩ := typedExtractor.extract_view_from_first_body
    [closureProp, typedView [closureProp]] (some "M")
  obtain ⟨m, t, doneA⟩ := returns readable {}
  obtain ⟨k, u, doneB⟩ := typedExtractor.extract_returns readable
    [closureProp, typedView [viewWith [lookedUp], closureProp], viewWith [eventless]] (some "M") {}
  refine ⟨edits, m, t, k, u, doneA, doneB, unseen _ edits {} m t k u doneA doneB, ?_⟩
  have shown : (((typedExtractor.extract [closureProp, typedView [closureProp]]
      (some "M")).outcome {}).1.toOption.map fun m => (m :: m.view.toList).map fun d =>
        (d.name, d.props.flatMap fun p => p.signature.parameters.map (·.name))) =
      some [("M", [some (Wording.ofString "size")]),
        ("V", [some (Wording.ofString "size")])] := by
    have first : viewNode? [closureProp, typedView [closureProp]] =
        some (typedView [closureProp]) := rfl
    rw [extract_eq_viewAlong, ViewChain.ofRoot_of_body first rfl, ViewChain.ofRoot_of_none rfl]
    decide +kernel
  rw [doneA] at shown
  exact Option.some.inj shown

end Extractor

end ModuleStubs
