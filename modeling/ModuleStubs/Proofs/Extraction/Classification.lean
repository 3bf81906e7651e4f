import ModuleStubs.Proofs.Extraction.Account
import ModuleStubs.Proofs.Extraction.WellFormed

/-! Every node of a module goes where its label says, once and in order: a node that asks
for a name gives a declaration or a warning, and nodes with other labels are not seen. -/

namespace ModuleStubs

def Source.givenText? (s : Source) (n : Node) : Option String := (n.child? 0).bind s.readableText?

namespace Diagnostic

def namelessEnd : String := " has no readable name"

def isNameless (d : Diagnostic) : Bool :=
  d.severity = .warning && (Wording.ofString namelessEnd).isSuffixOf d.message

theorem isNameless_of_end (front : String) (source : Option Path) :
    isNameless ⟨.warning, Wording.ofString (front ++ namelessEnd), source⟩ = true := by
  simp [isNameless]

theorem not_isNameless_of_end {rest : String}
    (long : (Wording.ofString namelessEnd).length ≤ (Wording.ofString rest).length)
    (other : ¬ Wording.ofString namelessEnd <:+ Wording.ofString rest) (front : String)
    (severity : Severity) (source : Option Path) :
    isNameless ⟨severity, Wording.ofString (front ++ rest), source⟩ = false := by
  have apart : ¬ Wording.ofString namelessEnd <:+ Wording.ofString (front ++ rest) := by
    intro ending
    rw [Wording.ofString_append] at ending
    exact other (List.suffix_of_suffix_length_le ending (List.suffix_append _ _) long)
  have off : (Wording.ofString namelessEnd).isSuffixOf (Wording.ofString (front ++ rest)) =
      false := by
    simpa [← List.isSuffixOf_iff_suffix] using apart
  rw [isNameless, off, Bool.and_false]

end Diagnostic

namespace Draft

def name? : Draft → Option (Option String)
  | .declared name _ => some name
  | .nameless _ => none

def lostOffset? : Draft → Option (Option Int)
  | .declared _ _ => none
  | .nameless offset => some offset

variable {s : Source} {n : Node}

theorem named_of_some {text : String} (read : s.givenText? n = some text) :
    named s n = .declared (some text) (Body.ofNode? (n.child? 1)) := by
  unfold Source.givenText? at read
  rw [named, read]

theorem named_of_none (read : s.givenText? n = none) : named s n = .nameless n.offset := by
  unfold Source.givenText? at read
  rw [named, read]

theorem filterMap_name?_named (s : Source) (nodes : List Node) :
    (nodes.map (named s)).filterMap name? = (nodes.filterMap s.givenText?).map some := by
  induction nodes with
  | nil => rfl
  | cons n nodes ih =>
    cases read : s.givenText? n with
    | none =>
      rw [List.map_cons, named_of_none read, List.filterMap_cons_none (by rfl), ih,
        List.filterMap_cons_none read]
    | some text =>
      rw [List.map_cons, named_of_some read, List.filterMap_cons_some (by rfl), ih,
        List.filterMap_cons_some read, List.map_cons]

theorem filterMap_lostOffset?_named (s : Source) (nodes : List Node) :
    (nodes.map (named s)).filterMap lostOffset? =
      (nodes.filter fun n => (s.givenText? n).isNone).map (·.offset) := by
  induction nodes with
  | nil => rfl
  | cons n nodes ih =>
    cases read : s.givenText? n with
    | none =>
      rw [List.map_cons, named_of_none read, List.filterMap_cons_some (by rfl), ih,
        List.filter_cons_of_pos (by simp [read]), List.map_cons]
    | some text =>
      rw [List.map_cons, named_of_some read, List.filterMap_cons_none (by rfl), ih,
        List.filter_cons_of_neg (by simp [read])]

end Draft

namespace Extractor

variable (x : Extractor) (label : String)

theorem isNameless_namelessNote (offset : Option Int) :
    (x.namelessNote label offset).isNameless = true :=
  Diagnostic.isNameless_of_end _ _

theorem not_isNameless_of_bodyTold {before : List Call} {body : Body} {signature : Signature}
    {tale : Tale} (told : x.BodyTold label before body signature tale) :
    tale.notes.filter Diagnostic.isNameless = [] := by
  cases told with
  | absent =>
    have other : (x.bodilessNote label).isNameless = false :=
      Diagnostic.not_isNameless_of_end (by decide) (by decide) _ _ _
    simp [other]
  | shapeless offset =>
    have other : (x.shapelessNote label offset).isNameless = false :=
      Diagnostic.not_isNameless_of_end (by decide) (by decide) _ _ _
    simp [other]
  | closure signature => rfl
  | placeless => rfl
  | found given => cases given <;> rfl
  | lost given => rfl

variable {x label}

theorem DraftsTold.names {before : List Call} {drafts : List Draft} {ds : List Declaration}
    {tale : Tale} (told : x.DraftsTold label before drafts ds tale) :
    ds.map (·.name) = drafts.filterMap Draft.name? := by
  induction told with
  | nil => rfl
  | nameless rest ih => exact ih
  | declared first rest ih => exact congrArg _ ih

theorem DraftsTold.nameless_notes {before : List Call} {drafts : List Draft}
    {ds : List Declaration} {tale : Tale} (told : x.DraftsTold label before drafts ds tale) :
    tale.notes.filter Diagnostic.isNameless =
      (drafts.filterMap Draft.lostOffset?).map (x.namelessNote label) := by
  induction told with
  | nil => rfl
  | @nameless before offset drafts ds tale rest ih =>
    rw [Tale.notes_append, List.filter_append, ih]
    have note := x.isNameless_namelessNote label offset
    simp [note, Draft.lostOffset?]
  | declared first rest ih =>
    rw [Tale.notes_append, List.filter_append, ih, x.not_isNameless_of_bodyTold label first]
    rfl

variable (x label)

/-- The declarations of the nodes with a label that asks for a name, and the notes made on
the way: one declaration for each node with a readable name, one warning for each other. -/
structure NamedGroup (root : List Node) (ds : List Declaration) (notes : List Diagnostic) :
    Prop where
  names : ds.map (·.name) = ((labelled label root).filterMap x.source.givenText?).map some
  warnings : notes.filter Diagnostic.isNameless =
    ((labelled label root).filter fun n => (x.source.givenText? n).isNone).map fun n =>
      x.namelessNote label n.offset
  conserved : (labelled label root).length =
    ds.length + (notes.filter Diagnostic.isNameless).length

theorem length_eq_filterMap_add_filter {α β : Type} (f : α → Option β) (as : List α) :
    as.length = (as.filterMap f).length + (as.filter fun a => (f a).isNone).length := by
  rw [List.length_filterMap_eq_countP, ← List.countP_eq_length_filter,
    List.length_eq_countP_add_countP fun a => (f a).isSome]
  congr 1
  exact List.countP_congr fun a _ => by simp

theorem namedGroup_of_draftsTold {before : List Call} {root : List Node} {ds : List Declaration}
    {tale : Tale} (told : x.DraftsTold label before (namedDrafts x.source label root) ds tale) :
    x.NamedGroup label root ds tale.notes := by
  have names : ds.map (·.name) =
      ((labelled label root).filterMap x.source.givenText?).map some := by
    rw [told.names, namedDrafts, Draft.filterMap_name?_named]
  have warnings : tale.notes.filter Diagnostic.isNameless =
      ((labelled label root).filter fun n => (x.source.givenText? n).isNone).map fun n =>
        x.namelessNote label n.offset := by
    rw [told.nameless_notes, namedDrafts, Draft.filterMap_lostOffset?_named, List.map_map]
    rfl
  refine ⟨names, warnings, ?_⟩
  have counted := congrArg List.length names
  rw [List.length_map, List.length_map] at counted
  rw [counted, warnings, List.length_map]
  exact length_eq_filterMap_add_filter x.source.givenText? _

theorem NamedGroup.withoutView {root : List Node} {ds : List Declaration}
    {notes : List Diagnostic} (group : x.NamedGroup label root ds notes) :
    x.NamedGroup label root (ds.map Declaration.withoutView) notes := by
  refine ⟨?_, group.warnings, ?_⟩
  · rw [List.map_map]
    exact group.names
  · rw [List.length_map]
    exact group.conserved

structure Classified (root : List Node) (defaultName : Option String) (m : Definition)
    (t : GroupTales) : Prop where
  name : m.name = (x.chosenName? root defaultName).getD x.source.path.stem
  nameNotes : t.name.notes =
    if (x.chosenName? root defaultName).isSome then [] else [x.stemNote]
  functions : x.NamedGroup Label.function root m.functions t.functions.notes
  asyncFunctions : x.NamedGroup Label.asyncFunction root m.asyncFunctions t.asyncFunctions.notes
  events : m.events = (groupedNodes Label.events root).filterMap x.source.readableText?
  eventsNotes : t.events.notes = ((groupedNodes Label.events root).filter fun n =>
    (x.source.readableText? n).isNone).map fun n => x.entryNote Label.events n.offset
  eventsConserved : (groupedNodes Label.events root).length =
    m.events.length + t.events.notes.length
  properties : x.NamedGroup Label.property root m.properties t.properties.notes
  props : x.NamedGroup Label.prop root m.props t.props.notes
  onCreate : m.onCreate.map (·.name) = (labelled Label.onCreate root).map fun _ => none
  onCreateNotes : t.onCreate.notes.filter Diagnostic.isNameless = []

theorem SurfaceTold.classified {root : List Node} {defaultName : Option String}
    {before : List Call} {m : Definition} {t : GroupTales}
    (told : x.SurfaceTold root defaultName before m t) : x.Classified root defaultName m t := by
  obtain ⟨props, same, toldProps⟩ := told.props
  have hooks : (unnamedDrafts Label.onCreate root).filterMap Draft.name? =
      (labelled Label.onCreate root).map fun _ => none := by
    rw [unnamedDrafts, List.filterMap_map, ← List.filterMap_eq_map]
    rfl
  have named : (unnamedDrafts Label.onCreate root).filterMap Draft.lostOffset? = [] := by
    rw [unnamedDrafts, List.filterMap_map]
    exact List.filterMap_eq_nil_iff.mpr fun n _ => rfl
  exact {
    name := told.name
    nameNotes := by rw [told.nameTale]
    functions := x.namedGroup_of_draftsTold _ told.functions
    asyncFunctions := x.namedGroup_of_draftsTold _ told.asyncFunctions
    events := told.events
    eventsNotes := by rw [told.eventsTale]
    eventsConserved := by
      rw [told.events, told.eventsTale, List.length_map]
      exact length_eq_filterMap_add_filter x.source.readableText? _
    properties := x.namedGroup_of_draftsTold _ told.properties
    props := by
      rw [same]
      exact NamedGroup.withoutView x _ (x.namedGroup_of_draftsTold _ toldProps)
    onCreate := told.onCreate.names.trans hooks
    onCreateNotes := by rw [told.onCreate.nameless_notes, named, List.map_nil] }

end Extractor

def Label.ofGroups : List String :=
  [Label.name, Label.function, Label.asyncFunction, Label.events, Label.property, Label.prop,
    Label.onCreate]

def Node.isLabelled (n : Node) : Bool :=
  (Label.view :: Label.ofGroups).any fun label => n.name = some (Wording.ofString label)

theorem labelled_filter_isLabelled {label : String} (known : label ∈ Label.view :: Label.ofGroups)
    (root : List Node) : labelled label (root.filter Node.isLabelled) = labelled label root := by
  unfold labelled
  rw [List.filter_filter]
  refine List.filter_congr fun n _ => ?_
  by_cases has : n.name = some (Wording.ofString label)
  · have seen : n.isLabelled = true := List.any_eq_true.mpr ⟨label, known, by simpa using has⟩
    simp [has, seen]
  · simp [has]

theorem viewNode?_eq_head? (root : List Node) :
    viewNode? root = (labelled Label.view root).head? := by
  rw [viewNode?, labelled, List.head?_filter]

theorem ViewChain.ofRoot_of_fault {s : Source} {root : List Node} {n : Node} {why : ViewFault}
    (h : viewNode? root = some n) (hb : n.viewBody = .error why) :
    ofRoot s root = .broken why := by
  rw [ofRoot]
  split
  · next hn => rw [h] at hn; cases hn
  · next found hn =>
    rw [h] at hn
    cases hn
    split
    · next hw => rw [hb] at hw; cases hw; rfl
    · next hw => rw [hb] at hw; cases hw

theorem ViewChain.ofRoot_congr {s : Source} {a b : List Node} (same : viewNode? a = viewNode? b) :
    ofRoot s a = ofRoot s b := by
  cases first : viewNode? b with
  | none => rw [ofRoot_of_none first, ofRoot_of_none (same.trans first)]
  | some n =>
    cases below : n.viewBody with
    | error why => rw [ofRoot_of_fault first below, ofRoot_of_fault (same.trans first) below]
    | ok body => rw [ofRoot_of_body first below, ofRoot_of_body (same.trans first) below]

namespace Extractor

variable (x : Extractor)

theorem surface_congr {a b : List Node} (defaultName : Option String)
    (groups : ∀ label ∈ Label.ofGroups, labelled label a = labelled label b) :
    x.surface a defaultName = x.surface b defaultName := by
  simp only [surface, moduleName, givenName?, named, namedDrafts, grouped, groupedNodes, unnamed,
    unnamedDrafts]
  rw [groups Label.name (by decide), groups Label.function (by decide),
    groups Label.asyncFunction (by decide), groups Label.events (by decide),
    groups Label.property (by decide), groups Label.prop (by decide),
    groups Label.onCreate (by decide)]

/-- Extraction sees the nodes of each group and the first view, and nothing else. -/
theorem extract_congr {a b : List Node} (defaultName : Option String)
    (groups : ∀ label ∈ Label.ofGroups, labelled label a = labelled label b)
    (view : viewNode? a = viewNode? b) : x.extract a defaultName = x.extract b defaultName := by
  rw [extract, extract, chained, chained, x.surface_congr defaultName groups,
    ViewChain.ofRoot_congr view]

theorem extract_filter_isLabelled (root : List Node) (defaultName : Option String) :
    x.extract (root.filter Node.isLabelled) defaultName = x.extract root defaultName := by
  refine x.extract_congr defaultName (fun label mem => ?_) ?_
  · exact labelled_filter_isLabelled (List.mem_cons_of_mem _ mem) root
  · rw [viewNode?_eq_head?, viewNode?_eq_head?, labelled_filter_isLabelled List.mem_cons_self]

theorem heardAll_of_readable {box : Toolbox} (readable : box.Readable) (before calls : List Call) :
    box.HeardAll before calls := by
  rw [Toolbox.heardAll_iff]
  intro earlier call later _
  exact readable (before ++ earlier) call

theorem extract_returns (readable : x.box.Readable) (root : List Node)
    (defaultName : Option String) (s : Session) :
    ∃ m t, (x.extract root defaultName).outcome s = (.ok m, t) := by
  obtain ⟨tale, -, ends⟩ := x.accounts_extract s root defaultName
  obtain ⟨m, given⟩ := ends.returns_iff.1.mpr (heardAll_of_readable readable _ _)
  exact ⟨m, _, Prod.ext given rfl⟩

end Extractor

end ModuleStubs
