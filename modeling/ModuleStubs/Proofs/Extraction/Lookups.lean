import ModuleStubs.Proofs.Extraction.Nesting

/-! The lookups of an extraction, read off the nodes alone: which declarations of a module and
of the views in it ask the tool, at which place and in which order, which of these lookups
fail, and what becomes of such declarations. -/

namespace ModuleStubs

inductive DeclarationKind where
  | function
  | asyncFunction
  | property
  | prop
  | onCreate
  deriving DecidableEq

namespace DeclarationKind

def inOrder : List DeclarationKind := [function, asyncFunction, property, prop, onCreate]

def label : DeclarationKind → String
  | function => Label.function
  | asyncFunction => Label.asyncFunction
  | property => Label.property
  | prop => Label.prop
  | onCreate => Label.onCreate

def nameOf? (s : Source) : DeclarationKind → Node → Option (Option String)
  | onCreate, _ => some none
  | _, n => (s.givenText? n).map some

/-- The node that types are read from: the second child, or the first where no name is given. -/
def typeNode? : DeclarationKind → Node → Option Node
  | onCreate, n => n.child? 0
  | _, n => n.child? 1

def draft (s : Source) : DeclarationKind → Node → Draft
  | onCreate, n => Draft.unnamed n
  | _, n => Draft.named s n

theorem draft_of_name {s : Source} {k : DeclarationKind} {n : Node} {name : Option String}
    (known : k.nameOf? s n = some name) :
    k.draft s n = .declared name (Body.ofNode? (k.typeNode? n)) := by
  cases k with
  | onCreate =>
    cases known
    rfl
  | _ =>
    obtain ⟨text, given, rfl⟩ := Option.map_eq_some_iff.mp known
    exact Draft.named_of_some given

theorem draft_of_no_name {s : Source} {k : DeclarationKind} {n : Node}
    (unknown : k.nameOf? s n = none) : k.draft s n = .nameless n.offset := by
  cases k with
  | onCreate => cases unknown
  | _ => exact Draft.named_of_none (Option.map_eq_none_iff.mp unknown)

end DeclarationKind

def Definition.ofKind (m : Definition) : DeclarationKind → List Declaration
  | .function => m.functions
  | .asyncFunction => m.asyncFunctions
  | .property => m.properties
  | .prop => m.props
  | .onCreate => m.onCreate

/-- A declaration whose types have to be looked up, the offset of its types if there is one, and
its place among the declarations of its kind. -/
structure Lookup where
  kind : DeclarationKind
  name : Option String
  place : Nat
  offset : Option Int
  deriving DecidableEq

namespace Lookup

def ofTypes? (k : DeclarationKind) (name : Option String) (place : Nat) :
    Option Node → Option Lookup
  | none => none
  | some n => if n.hasChildren then none else some ⟨k, name, place, n.offset⟩

theorem of_mem_ofTypes? {k : DeclarationKind} {name : Option String} {place : Nat}
    {types : Option Node} {l : Lookup} (mem : l ∈ (ofTypes? k name place types).toList) :
    l.kind = k ∧ l.name = name ∧ l.place = place := by
  rw [Option.mem_toList] at mem
  cases types with
  | none => cases mem
  | some n =>
    rw [ofTypes?] at mem
    split_ifs at mem
    cases mem
    exact ⟨rfl, rfl, rfl⟩

def ofNodes (s : Source) (k : DeclarationKind) (place : Nat) : List Node → List Lookup
  | [] => []
  | n :: ns =>
    match k.nameOf? s n with
    | none => ofNodes s k place ns
    | some name => (ofTypes? k name place (k.typeNode? n)).toList ++ ofNodes s k (place + 1) ns

def ofKind (s : Source) (root : List Node) (k : DeclarationKind) : List Lookup :=
  ofNodes s k 0 (labelled k.label root)

def ofModule (s : Source) (root : List Node) : List Lookup :=
  DeclarationKind.inOrder.flatMap (ofKind s root)

def ofChain (s : Source) : ViewChain → List Lookup
  | .nested root _ more => ofModule s root ++ ofChain s more
  | _ => []

def ofRoot (s : Source) (root : List Node) : List Lookup :=
  ofModule s root ++ ofChain s (ViewChain.ofRoot s root)

theorem ofRoot_eq (s : Source) (root : List Node) :
    ofRoot s root = ofModule s root ++ ((viewBody? root).map (ofRoot s)).getD [] := by
  rw [ofRoot]
  congr 1
  cases first : viewNode? root with
  | none =>
    have bodiless : viewBody? root = none := by rw [viewBody?, first, Option.bind_none]
    rw [ViewChain.ofRoot_of_none first, bodiless]
    rfl
  | some n =>
    cases below : n.viewBody with
    | error why =>
      rw [ViewChain.ofRoot_of_fault first below, viewBody?_of_error first below]
      rfl
    | ok body =>
      rw [ViewChain.ofRoot_of_body first below, viewBody?_of_ok first below]
      rfl

def call? (path : Path) (l : Lookup) : Option Call := l.offset.map (Call.request path)

def calls (path : Path) (ls : List Lookup) : List Call := ls.filterMap (call? path)

@[simp] theorem calls_nil (path : Path) : calls path [] = [] := rfl

@[simp] theorem calls_append (path : Path) (a b : List Lookup) :
    calls path (a ++ b) = calls path a ++ calls path b :=
  List.filterMap_append

end Lookup

/-- Every declaration whose lookup has failed is at its place, with nothing but its name. -/
def Definition.KeepsFailed (m : Definition) (failed : List (Lookup × ToolFault)) : Prop :=
  ∀ l why, (l, why) ∈ failed → (m.ofKind l.kind)[l.place]? = some ⟨l.name, .unresolved⟩

theorem Definition.KeepsFailed.append {m : Definition} {a b : List (Lookup × ToolFault)}
    (h : m.KeepsFailed a) (k : m.KeepsFailed b) : m.KeepsFailed (a ++ b) := fun l why mem =>
  (List.mem_append.mp mem).elim (h l why) (k l why)

def Diagnostic.isError (d : Diagnostic) : Bool := d.severity = .error

namespace Extractor

variable (x : Extractor)

def fault? (before : List Call) (l : Lookup) : Option ToolFault :=
  match l.offset with
  | none => some (.noOffset x.source.path)
  | some offset =>
    match x.box.requestResult x.source.path offset
        (x.box.tool before (.request x.source.path offset)) with
    | .ok (.error why) => some why
    | _ => none

def failures (before : List Call) : List Lookup → List (Lookup × ToolFault)
  | [] => []
  | l :: ls =>
    ((x.fault? before l).map (l, ·)).toList ++
      failures (before ++ (l.call? x.source.path).toList) ls

def failureNote (failure : Lookup × ToolFault) : Diagnostic :=
  x.lostNote failure.1.kind.label failure.1.offset failure.2

@[simp] theorem failures_nil (before : List Call) : x.failures before [] = [] := rfl

theorem failures_append (before : List Call) (a b : List Lookup) :
    x.failures before (a ++ b) =
      x.failures before a ++ x.failures (before ++ Lookup.calls x.source.path a) b := by
  induction a generalizing before with
  | nil => simp
  | cons l a ih =>
    have calls : Lookup.calls x.source.path (l :: a) =
        (l.call? x.source.path).toList ++ Lookup.calls x.source.path a := by
      rw [Lookup.calls, List.filterMap_cons]
      cases l.call? x.source.path <;> rfl
    rw [List.cons_append, failures, ih, failures, calls, List.append_assoc, List.append_assoc]

theorem failures_singleton (before : List Call) (l : Lookup) :
    x.failures before [l] = ((x.fault? before l).map (l, ·)).toList := by
  rw [failures, failures_nil, List.append_nil]

theorem mem_of_mem_failures {before : List Call} {ls : List Lookup} {l : Lookup} {why : ToolFault}
    (failed : (l, why) ∈ x.failures before ls) : l ∈ ls := by
  induction ls generalizing before with
  | nil => cases failed
  | cons first ls ih =>
    rw [failures, List.mem_append] at failed
    rcases failed with here | later
    · obtain ⟨fault, -, same⟩ := Option.map_eq_some_iff.mp (Option.mem_toList.mp here)
      cases same
      exact List.mem_cons_self
    · exact List.mem_cons_of_mem _ (ih later)

/-- What tells of lookups: the requests for them, and an error for each that fails. -/
structure TellsOf (before : List Call) (ls : List Lookup) (tale : Tale) : Prop where
  calls : tale.calls = Lookup.calls x.source.path ls
  errors : tale.notes.filter Diagnostic.isError = (x.failures before ls).map x.failureNote

variable {x}

theorem TellsOf.nil (before : List Call) {notes : List Diagnostic}
    (clean : notes.filter Diagnostic.isError = []) : x.TellsOf before [] ⟨[], notes⟩ :=
  ⟨rfl, clean⟩

theorem TellsOf.append {before : List Call} {a b : List Lookup} {first second : Tale}
    (h : x.TellsOf before a first) (k : x.TellsOf (before ++ first.calls) b second) :
    x.TellsOf before (a ++ b) (first ++ second) := by
  constructor
  · rw [Tale.calls_append, Lookup.calls_append, h.calls, k.calls]
  · rw [Tale.notes_append, List.filter_append, h.errors, k.errors, failures_append, List.map_append,
      h.calls]

theorem failures_of_kept {before : List Call} {l : Lookup} (kept : x.fault? before l = none) :
    x.failures before [l] = [] := by
  rw [failures_singleton, kept]
  rfl

theorem TellsOf.kept {before : List Call} {l : Lookup} (kept : x.fault? before l = none) :
    x.TellsOf before [l] ⟨(l.call? x.source.path).toList, []⟩ := by
  constructor
  · rw [Lookup.calls, List.filterMap_cons]
    cases l.call? x.source.path <;> rfl
  · rw [failures_of_kept kept]
    rfl

theorem TellsOf.lost {before : List Call} {l : Lookup} {why : ToolFault}
    (lost : x.fault? before l = some why) :
    x.TellsOf before [l] ⟨(l.call? x.source.path).toList, [x.failureNote (l, why)]⟩ := by
  constructor
  · rw [Lookup.calls, List.filterMap_cons]
    cases l.call? x.source.path <;> rfl
  · rw [failures_singleton, lost]
    rfl

theorem TellsOf.after {before : List Call} {ls : List Lookup} {notes : List Diagnostic}
    {tale : Tale} (clean : notes.filter Diagnostic.isError = []) (h : x.TellsOf before ls tale) :
    x.TellsOf before ls (⟨[], notes⟩ ++ tale) := by
  rw [← List.append_nil before] at h
  exact (TellsOf.nil before clean).append h

section

variable (off : x.box.settings.cacheLookups = false)
include off

theorem BodyTold.tellsOf {k : DeclarationKind} {types : Option Node} {before : List Call}
    {signature : Signature} {tale : Tale}
    (told : x.BodyTold k.label before (Body.ofNode? types) signature tale) (name : Option String)
    (place : Nat) :
    x.TellsOf before (Lookup.ofTypes? k name place types).toList tale ∧
      (x.failures before (Lookup.ofTypes? k name place types).toList ≠ [] →
        signature = .unresolved) := by
  cases types with
  | none =>
    cases told
    exact ⟨.nil before rfl, fun failed => absurd rfl failed⟩
  | some n =>
    rw [Body.ofNode?] at told
    rw [Lookup.ofTypes?]
    split_ifs at told ⊢ with within
    · refine ⟨?_, fun failed => absurd rfl failed⟩
      split at told
      · cases told
        exact .nil before rfl
      · cases told
        exact .nil before rfl
    · cases there : n.offset with
      | none =>
        rw [there] at told
        cases told
        exact ⟨.lost rfl, fun _ => rfl⟩
      | some offset =>
        rw [there] at told
        cases told with
        | found given =>
          cases given with
          | kept _ keeps =>
            rw [off] at keeps
            cases keeps
          | asked given =>
            have kept : x.fault? before ⟨k, name, place, some offset⟩ = none := by
              simp only [fault?, given]
            exact ⟨.kept kept, fun failed => absurd (failures_of_kept kept) failed⟩
        | @lost _ why given =>
          have lost : x.fault? before ⟨k, name, place, some offset⟩ = some why := by
            simp only [fault?, given]
          exact ⟨.lost lost, fun _ => rfl⟩

/-- The declarations of some nodes of one kind, the first of which are at some place. -/
theorem DraftsTold.tellsOf {k : DeclarationKind} {nodes : List Node} {before : List Call}
    {ds : List Declaration} {tale : Tale}
    (told : x.DraftsTold k.label before (nodes.map (k.draft x.source)) ds tale) (place : Nat) :
    x.TellsOf before (Lookup.ofNodes x.source k place nodes) tale ∧
      ∀ l why, (l, why) ∈ x.failures before (Lookup.ofNodes x.source k place nodes) →
        l.kind = k ∧ place ≤ l.place ∧ ds[l.place - place]? = some ⟨l.name, .unresolved⟩ := by
  induction nodes generalizing before ds tale place with
  | nil =>
    cases told
    exact ⟨.nil before rfl, nofun⟩
  | cons n nodes ih =>
    rw [List.map_cons] at told
    rw [Lookup.ofNodes]
    cases known : k.nameOf? x.source n with
    | none =>
      rw [DeclarationKind.draft_of_no_name known] at told
      cases told with
      | nameless rest =>
        obtain ⟨tells, failed⟩ := ih rest place
        exact ⟨tells.after rfl, failed⟩
    | some name =>
      rw [DeclarationKind.draft_of_name known] at told
      cases told with
      | declared first rest =>
        obtain ⟨own, unknown⟩ := first.tellsOf off name place
        obtain ⟨tells, failed⟩ := ih rest (place + 1)
        refine ⟨own.append tells, fun l why mem => ?_⟩
        rw [failures_append, ← own.calls, List.mem_append] at mem
        rcases mem with here | later
        · obtain ⟨kind, same, there⟩ := Lookup.of_mem_ofTypes? (x.mem_of_mem_failures here)
          rw [unknown (List.ne_nil_of_mem here), there, Nat.sub_self, same]
          exact ⟨kind, Nat.le_refl _, rfl⟩
        · obtain ⟨kind, bound, found⟩ := failed l why later
          have shift : l.place - place = (l.place - (place + 1)) + 1 := by omega
          rw [shift, List.getElem?_cons_succ]
          exact ⟨kind, Nat.le_of_succ_le bound, found⟩

theorem DraftsTold.keepsFailed {k : DeclarationKind} {root : List Node} {before : List Call}
    {ds : List Declaration} {tale : Tale} {m : Definition}
    (told : x.DraftsTold k.label before ((labelled k.label root).map (k.draft x.source)) ds tale)
    (same : ∀ (i : Nat) (name : Option String), ds[i]? = some ⟨name, .unresolved⟩ →
      (m.ofKind k)[i]? = some ⟨name, .unresolved⟩) :
    x.TellsOf before (Lookup.ofKind x.source root k) tale ∧
      m.KeepsFailed (x.failures before (Lookup.ofKind x.source root k)) := by
  obtain ⟨tells, failed⟩ := told.tellsOf off 0
  refine ⟨tells, fun l why mem => ?_⟩
  obtain ⟨rfl, -, found⟩ := failed l why mem
  exact same l.place l.name found

theorem SurfaceTold.keepsFailed {root : List Node} {defaultName : Option String}
    {before : List Call} {m : Definition} {t : GroupTales}
    (told : x.SurfaceTold root defaultName before m t) :
    x.TellsOf before (Lookup.ofModule x.source root) t.all ∧
      m.KeepsFailed (x.failures before (Lookup.ofModule x.source root)) := by
  obtain ⟨props, same, toldProps⟩ := told.props
  have kept : ∀ (i : Nat) (name : Option String), props[i]? = some ⟨name, .unresolved⟩ →
      m.props[i]? = some ⟨name, .unresolved⟩ := by
    intro i name found
    rw [same, List.getElem?_map, found]
    rfl
  have functions := DraftsTold.keepsFailed (k := .function) (m := m) off told.functions
    fun _ _ found => found
  have asyncFunctions := DraftsTold.keepsFailed (k := .asyncFunction) (m := m) off
    told.asyncFunctions fun _ _ found => found
  have properties := DraftsTold.keepsFailed (k := .property) (m := m) off told.properties
    fun _ _ found => found
  have props := DraftsTold.keepsFailed (k := .prop) (m := m) off toldProps kept
  have onCreate := DraftsTold.keepsFailed (k := .onCreate) (m := m) off told.onCreate
    fun _ _ found => found
  have inOrder : Lookup.ofModule x.source root =
      Lookup.ofKind x.source root .function ++ (Lookup.ofKind x.source root .asyncFunction ++
        (Lookup.ofKind x.source root .property ++ (Lookup.ofKind x.source root .prop ++
          Lookup.ofKind x.source root .onCreate))) := by
    simp [Lookup.ofModule, DeclarationKind.inOrder]
  rw [inOrder]
  constructor
  · have unnamed : (if (x.chosenName? root defaultName).isSome then []
        else [x.stemNote]).filter Diagnostic.isError = [] := by
      split_ifs <;> rfl
    have entries : (((groupedNodes Label.events root).filter fun n =>
        (x.source.readableText? n).isNone).map fun n =>
          x.entryNote Label.events n.offset).filter Diagnostic.isError = [] := by
      refine List.filter_eq_nil_iff.mpr fun note mem => ?_
      obtain ⟨n, -, rfl⟩ := List.mem_map.mp mem
      exact Bool.false_ne_true
    rw [GroupTales.all, told.nameTale, told.eventsTale]
    exact .after unnamed (functions.1.append (asyncFunctions.1.append (.after entries
      (properties.1.append (props.1.append onCreate.1)))))
  · simp only [failures_append, ← functions.1.calls, ← asyncFunctions.1.calls,
      ← properties.1.calls, ← props.1.calls]
    exact functions.2.append (asyncFunctions.2.append (properties.2.append
      (props.2.append onCreate.2)))

theorem ChainTold.tellsOf {chain : ViewChain} {before : List Call} {view : Option Definition}
    {tale : Tale} (told : x.ChainTold chain before view tale) :
    x.TellsOf before (Lookup.ofChain x.source chain) tale := by
  induction told with
  | none => exact .nil _ rfl
  | broken why => exact .nil _ rfl
  | nested own views ih => exact (own.keepsFailed off).1.append ih

/-- With lookups not kept, the requests of an extraction are those for the module, kind after
kind, and then those for the body of its view, in the same way. The errors are those of the
lookups that fail, in this order. A declaration of the module or of its view whose lookup fails
is kept, without parameters and of unknown result; views inside the view are not kept at all. -/
theorem extract_accounts_lookups (root : List Node) (defaultName : Option String) (s : Session) :
    Lookup.ofRoot x.source root = Lookup.ofModule x.source root ++
      ((viewBody? root).map (Lookup.ofRoot x.source)).getD [] ∧
    (x.box.Readable → ∃ m t, (x.extract root defaultName).outcome s = (.ok m, t)) ∧
    ∀ m t, (x.extract root defaultName).outcome s = (.ok m, t) →
      t.calls = s.calls ++ Lookup.calls x.source.path (Lookup.ofRoot x.source root) ∧
      t.diagnostics.filter Diagnostic.isError = s.diagnostics.filter Diagnostic.isError ++
        (x.failures s.calls (Lookup.ofRoot x.source root)).map x.failureNote ∧
      m.KeepsFailed (x.failures s.calls (Lookup.ofModule x.source root)) ∧
      ∀ body, viewBody? root = some body → ∃ v, m.view = some v ∧
        v.KeepsFailed (x.failures
          (s.calls ++ Lookup.calls x.source.path (Lookup.ofModule x.source root))
          (Lookup.ofModule x.source body)) := by
  refine ⟨Lookup.ofRoot_eq x.source root,
    fun readable => x.extract_returns readable root defaultName s, fun m t done => ?_⟩
  obtain ⟨tale, follows, ends⟩ := x.accounts_extract s root defaultName
  rw [done] at follows ends
  obtain ⟨-, own, told, rest, surface, views, whole, rfl⟩ := ends
  obtain ⟨tells, kept⟩ := surface.keepsFailed off
  have all := tells.append (views.tellsOf off)
  refine ⟨?_, ?_, ?_, ?_⟩
  · rw [follows.calls, all.calls]
    rfl
  · rw [follows.diagnostics, List.filter_append, all.errors]
    rfl
  · rw [whole]
    exact kept
  · intro body within
    obtain ⟨n, first, below⟩ := exists_of_viewBody? within
    rw [ViewChain.ofRoot_of_body first below, tells.calls] at views
    generalize m.view = view at views
    cases views with
    | nested inner more => exact ⟨_, rfl, (inner.keepsFailed off).2⟩

end

theorem lookups_of_module_and_view :
    sampleExtractor.box.settings.cacheLookups = false ∧
    ∃ m t v, (sampleExtractor.extract [lookedUp, viewWith [lookedUp]] (some "M")).outcome {} =
        (.ok m, t) ∧
      t.calls = [.request sampleExtractor.source.path 7, .request sampleExtractor.source.path 7] ∧
      m.functions[0]? = some ⟨some "f", .unresolved⟩ ∧
      m.view = some v ∧ v.functions[0]? = some ⟨some "f", .unresolved⟩ := by
  have readable : sampleExtractor.box.Readable :=
    Toolbox.readable_of_missing fun _ _ => rfl
  obtain ⟨whole, returns, accounts⟩ := sampleExtractor.extract_accounts_lookups rfl
    [lookedUp, viewWith [lookedUp]] (some "M") {}
  obtain ⟨m, t, done⟩ := returns readable
  obtain ⟨calls, -, kept, nested⟩ := accounts m t done
  let l : Lookup := ⟨.function, some "f", 0, some 7⟩
  have own : Lookup.ofModule sampleExtractor.source [lookedUp, viewWith [lookedUp]] = [l] := by
    decide +kernel
  have inner : Lookup.ofModule sampleExtractor.source [lookedUp] = [l] := by decide +kernel
  have body : viewBody? [lookedUp, viewWith [lookedUp]] = some [lookedUp] := rfl
  have bodiless : viewBody? [lookedUp] = none := rfl
  rw [whole, own, body, Option.map_some, Option.getD_some, Lookup.ofRoot_eq, inner, bodiless]
    at calls
  obtain ⟨v, has, keptInView⟩ := nested _ body
  rw [own] at kept
  rw [inner] at keptInView
  exact ⟨rfl, m, t, v, done, calls, kept l .missing List.mem_cons_self, has,
    keptInView l .missing List.mem_cons_self⟩

/-- In a view inside the view, a lookup that fails leaves its error, and no declaration. -/
theorem inner_view_lost :
    ∃ m t v, (sampleExtractor.extract (viewInView [lookedUp]) (some "M")).outcome {} = (.ok m, t) ∧
      t.diagnostics = [sampleExtractor.lostNote Label.function (some 7) .missing] ∧
      m.declarations.length = 0 ∧ m.view = some v ∧ v.declarations.length = 0 ∧
      v.view.isNone := by
  have shown : (((sampleExtractor.extract (viewInView [lookedUp]) (some "M")).outcome
      {}).1.toOption.map fun m => (m.declarations.length, m.view.map fun v =>
        (v.declarations.length, v.view.isNone))) = some (0, some (0, true)) ∧
      ((sampleExtractor.extract (viewInView [lookedUp]) (some "M")).outcome {}).2.diagnostics =
        [sampleExtractor.lostNote Label.function (some 7) .missing] := by
    rw [extract_viewInView lookedUp (by decide)]
    decide +kernel
  obtain ⟨given, noted⟩ := shown
  obtain ⟨m, done, declared⟩ := Option.map_eq_some_iff.mp given
  obtain ⟨none, has⟩ := Prod.mk.inj declared
  obtain ⟨v, viewed, left⟩ := Option.map_eq_some_iff.mp has
  obtain ⟨inView, last⟩ := Prod.mk.inj left
  exact ⟨m, _, v, Prod.ext (eq_ok_of_toOption done) rfl, noted, none, viewed, inView, last⟩

end Extractor

end ModuleStubs
