import ModuleStubs.Extraction.Definition
import ModuleStubs.Proofs.Definition.Types
import ModuleStubs.Proofs.Tool.Account
import ModuleStubs.Proofs.Tool.Contract

/-! What extraction delivers, whatever the tree, the source and the tool say: its names are
readable, and its signatures have every property that all signatures have that are found. Of the
kept signatures any fact may be assumed that all lookups leave true. -/

namespace ModuleStubs

def IsName (text : String) : Prop := text ≠ "" ∧ '"' ∉ text.toList

def IsNamed (name : Option String) : Prop := ∃ text, name = some text ∧ IsName text

theorem isName_of_readableText? {s : Source} {n : Node} {text : String}
    (read : s.readableText? n = some text) : IsName text := by
  obtain ⟨covered, filled⟩ := Option.filter_eq_some_iff.mp read
  refine ⟨by simpa using filled, ?_⟩
  obtain ⟨offset, -, rest⟩ := Option.bind_eq_some_iff.mp covered
  obtain ⟨length, -, found⟩ := Option.bind_eq_some_iff.mp rest
  cases found
  rw [Source.textAt, String.toList_ofList, List.mem_filter]
  rintro ⟨-, quote⟩
  simp at quote

def OfNames (P : Descriptor → Prop) : Prop := ∀ name, P (Descriptor.ofName name)

/-- A property of all signatures that are found, for nodes of some kind: what closures spell out,
what the tool describes, and what stands for no signature at all. -/
structure SignatureRule (N : Node → Prop) (S : Signature → Prop) : Prop where
  child : ∀ n, N n → ∀ c ∈ n.children, N c
  closure : ∀ n, N n → S n.closureSignature
  described : ∀ fields s, CursorInfo.signature fields = .ok s → S s
  unresolved : S .unresolved
  empty : S {}
  withoutView : ∀ s, S s → S s.withoutView

section

variable {P : Descriptor → Prop} (read : OfNames P)
include read

namespace Signature

omit read in
theorem Every.withoutView {s : Signature} (every : s.Every P) : s.withoutView.Every P := by
  obtain ⟨parameters, result⟩ := every_iff.mp every
  refine every_iff.mpr ⟨fun p mem => ?_, result⟩
  have kept := (List.mem_filter.mp mem).1
  exact parameters p (List.mem_of_mem_tail kept)

theorem every_unresolved : unresolved.Every P := by
  have unknown := read (some Descriptor.unknownMarker)
  rw [Descriptor.ofName_unknownMarker] at unknown
  exact every_iff.mpr ⟨nofun, unknown⟩

theorem every_empty : ({} : Signature).Every P := every_iff.mpr ⟨nofun, read none⟩

end Signature

namespace CursorInfo

theorem every_ofXml (x : Xml) : (ofXml x).Every P := by
  unfold ofXml
  split_ifs
  · refine Signature.every_iff.mpr ⟨fun p mem => ?_, read _⟩
    obtain ⟨child, -, rfl⟩ := List.mem_map.mp mem
    exact read _
  · exact Signature.every_empty read

omit read in
theorem of_signature_eq_ok {fields : List (Wording × Json)} {s : Signature}
    (found : signature fields = .ok s) : s = ⟨[], .unknown, some fields⟩ ∨ ∃ x, s = ofXml x := by
  unfold signature at found
  split at found
  · exact .inl (Except.ok.inj found).symm
  · split at found
    · cases found
    · split at found
      · exact .inr ⟨_, (Except.ok.inj found).symm⟩
      · cases found

end CursorInfo

theorem Node.every_closureSignature (n : Node) : n.closureSignature.Every P := by
  obtain ⟨-, unknown⟩ := Signature.every_iff.mp (Signature.every_unresolved read)
  refine Signature.every_iff.mpr ⟨fun p mem => ?_, unknown⟩
  obtain ⟨child, -, rfl⟩ := List.mem_map.mp mem
  exact read _

theorem signatureRule_every : SignatureRule (fun _ => True) (Signature.Every P) where
  child := fun _ _ _ _ => trivial
  closure := fun n _ => n.every_closureSignature read
  described := by
    intro fields s found
    obtain rfl | ⟨x, rfl⟩ := CursorInfo.of_signature_eq_ok found
    · exact Signature.every_unresolved read
    · exact CursorInfo.every_ofXml read x
  unresolved := Signature.every_unresolved read
  empty := Signature.every_empty read
  withoutView := fun _ => Signature.Every.withoutView

end

def Memo.Every (S : Signature → Prop) (memo : Memo) : Prop := ∀ entry ∈ memo, S entry.2

theorem Memo.every_nil {S : Signature → Prop} : Memo.Every S [] := nofun

namespace Toolbox

variable {N : Node → Prop} {S : Signature → Prop}

def Readable (box : Toolbox) : Prop := ∀ before call, ¬ (box.tool before call).EndsWork call

theorem readable_of_missing {box : Toolbox}
    (missing : ∀ before call, box.tool before call = .missing) :
    box.Readable := by
  intro before call
  rw [missing]
  cases call with
  | tree path => exact nofun
  | request path offset => exact not_or.mpr ⟨nofun, nofun⟩

def Gives (S : Signature → Prop) (result : Except ToolFault Signature) : Prop :=
  ∀ signature, result = .ok signature → S signature

theorem gives_error (why : ToolFault) : Gives S (.error why) := nofun

theorem gives_ok {signature : Signature} (holds : S signature) : Gives S (.ok signature) := by
  intro other same
  rwa [← Except.ok.inj same]

theorem gives_infoResult (rule : SignatureRule N S) {box : Toolbox} {path : Path} {offset : Int}
    {value : Json} {result : Except ToolFault Signature}
    (given : box.infoResult path offset value = .ok result) : Gives S result := by
  unfold infoResult at given
  split at given
  · cases given
    exact gives_error _
  · split at given
    · next signature found =>
      cases given
      exact gives_ok (rule.described _ _ found)
    · cases given
      exact gives_error _
    · cases given

theorem gives_requestResult (rule : SignatureRule N S) {box : Toolbox} {path : Path} {offset : Int}
    {reply : Reply} {result : Except ToolFault Signature}
    (given : box.requestResult path offset reply = .ok result) : Gives S result := by
  unfold requestResult at given
  split at given
  · cases given
  · cases given
    exact gives_error _
  · exact gives_infoResult rule given

theorem ensures_request {known : Memo → Prop} (rule : SignatureRule N S) (box : Toolbox)
    (path : Path) (offset : Int) :
    Action.Ensures known (¬ box.Readable) (box.request path offset) (Gives S) := by
  intro s start
  obtain ⟨t, reached, memo, -, -⟩ := outcome_request box path offset s
  rw [reached]
  refine ⟨memo ▸ start, ?_⟩
  split
  · next result given => exact gives_requestResult rule given
  · next why failed =>
    intro readable
    obtain ⟨result, given⟩ :=
      (requestResult_eq_ok_iff box path offset _).mpr (readable s.calls (.request path offset))
    cases given.symm.trans failed

theorem every_of_find {memo : Memo} (every : memo.Every S) {key : String × Int}
    {signature : Signature} (found : memo.find key = some signature) : S signature := by
  obtain ⟨entry, held, rfl⟩ := Option.map_eq_some_iff.mp found
  exact every entry (List.mem_of_find?_eq_some held)

theorem every_remember {memo : Memo} (every : memo.Every S) (key : String × Int)
    {signature : Signature} (fresh : S signature) : Memo.Every S (memo ++ [(key, signature)]) := by
  intro entry mem
  rcases List.mem_append.mp mem with old | new
  · exact every entry old
  · rw [List.mem_singleton.mp new]
    exact fresh

theorem ensures_lookup (rule : SignatureRule N S) (box : Toolbox) (path : Path) (offset : Int) :
    Action.Ensures (Memo.Every S) (¬ box.Readable) (box.lookup path offset) (Gives S) := by
  unfold lookup
  split_ifs
  · intro s start
    rw [Action.outcome_bind_of_ok (Action.outcome_get s)]
    cases found : s.memo.find (path.text, offset) with
    | some signature =>
      exact ⟨start, gives_ok (every_of_find start found)⟩
    | none =>
      refine Action.ensures_bind (ensures_request rule box path offset) (fun result every => ?_) s
        start
      cases result with
      | error why => exact Action.ensures_pure every
      | ok signature =>
        have fresh := every signature rfl
        exact fun t held => ⟨every_remember held _ fresh, every⟩
  · exact ensures_request rule box path offset

end Toolbox

/-- A fact of the kept signatures that lookups leave true, and with which they give signatures of
a rule. -/
structure KeptFor (N : Node → Prop) (S : Signature → Prop) (known : Memo → Prop) : Prop where
  rule : SignatureRule N S
  lookup : ∀ (box : Toolbox) (path : Path) (offset : Int),
    Action.Ensures known (¬ box.Readable) (box.lookup path offset) (Toolbox.Gives S)

section

variable {N : Node → Prop} {S : Signature → Prop} {known : Memo → Prop}

theorem keptFor_every (rule : SignatureRule N S) : KeptFor N S (Memo.Every S) :=
  ⟨rule, Toolbox.ensures_lookup rule⟩

theorem Toolbox.ensures_resolve (kept : KeptFor N S known) (box : Toolbox) (path : Path)
    (offset : Option Int) :
    Action.Ensures known (¬ box.Readable) (box.resolve path offset) (Gives S) := by
  cases offset with
  | none => exact Action.ensures_pure (gives_error _)
  | some offset => exact kept.lookup box path offset

theorem SignatureRule.child? (rule : SignatureRule N S) {n c : Node} (held : N n) {index : Int}
    (found : n.child? index = some c) : N c := by
  unfold Node.child? at found
  split at found
  · cases found
  · exact rule.child n held c (List.mem_of_getElem? found)

theorem SignatureRule.descend (rule : SignatureRule N S) {way : List Int} {n d : Node} (held : N n)
    (found : n.descend way = some d) : N d := by
  induction way generalizing n with
  | nil =>
    cases found
    exact held
  | cons index way ih =>
    obtain ⟨c, first, rest⟩ := Option.bind_eq_some_iff.mp found
    exact ih (rule.child? held first) rest

def Body.Every (S : Signature → Prop) : Body → Prop
  | .closure signature => S signature
  | _ => True

theorem Body.every_ofNode? (rule : SignatureRule N S) {n : Option Node}
    (held : ∀ c, n = some c → N c) :
    (Body.ofNode? n).Every S := by
  fun_cases Body.ofNode? n with
  | case2 n _ found closure =>
    refine rule.closure found ?_
    unfold Node.closure? at closure
    split at closure
    · cases closure
      exact held n rfl
    · exact rule.child n (held n rfl) found (List.mem_of_find?_eq_some closure)
  | _ => trivial

def Draft.Fits (S : Signature → Prop) (fits : Option String → Prop) : Draft → Prop
  | .nameless _ => True
  | .declared name body => fits name ∧ body.Every S

theorem Draft.fits_named (rule : SignatureRule N S) (s : Source) {n : Node} (held : N n) :
    (Draft.named s n).Fits S IsNamed := by
  unfold Draft.named
  split
  · next name covered =>
    obtain ⟨child, -, text⟩ := Option.bind_eq_some_iff.mp covered
    exact ⟨⟨name, rfl, isName_of_readableText? text⟩,
      Body.every_ofNode? rule fun _ found => rule.child? held found⟩
  · trivial

theorem Draft.fits_unnamed (rule : SignatureRule N S) {n : Node} (held : N n) :
    (Draft.unnamed n).Fits S (· = none) :=
  ⟨rfl, Body.every_ofNode? rule fun _ found => rule.child? held found⟩

def ViewChain.Each (N : Node → Prop) : ViewChain → Prop
  | .none => True
  | .broken _ => True
  | .nested root _ more => (∀ n ∈ root, N n) ∧ more.Each N

theorem ViewChain.each_ofRoot (rule : SignatureRule N S) (s : Source) {root : List Node}
    (held : ∀ n ∈ root, N n) : (ViewChain.ofRoot s root).Each N := by
  fun_induction ViewChain.ofRoot s root with
  | case1 => trivial
  | case2 => trivial
  | case3 root n first body below ih =>
    have inside : ∀ c ∈ body, N c := by
      unfold Node.viewBody at below
      split at below
      · cases below
      · next d found =>
        split at below
        · cases below
          exact rule.child d (rule.descend (held n (List.mem_of_find?_eq_some first)) found)
        · cases below
    exact ⟨inside, ih inside⟩

end

theorem name_ne_view_of_mem {ps : List Parameter} {p : Parameter} (mem : p ∈ withoutView ps) :
    p.name ≠ some (Wording.ofString "view") := by
  simpa using (List.mem_filter.mp mem).2

/-- What every extracted definition satisfies, its view apart. -/
structure Definition.Shaped (S : Signature → Prop) (m : Definition) : Prop where
  names : ∀ d ∈ m.functions ++ m.asyncFunctions ++ m.properties ++ m.props, IsNamed d.name
  events : ∀ name ∈ m.events, IsName name
  onCreate : ∀ d ∈ m.onCreate, d.name = none
  props : ∀ d ∈ m.props, ∀ p ∈ d.signature.parameters, p.name ≠ some (Wording.ofString "view")
  signatures : ∀ d ∈ m.declarations, S d.signature

def ShapedAsView (S : Signature → Prop) (view : Option Definition) : Prop :=
  ∀ v, view = some v → v.Shaped S ∧ v.view = none

section

variable {S : Signature → Prop}

theorem Definition.Shaped.withView {m : Definition} (shaped : m.Shaped S)
    (view : Option Definition) : ({ m with view := view } : Definition).Shaped S :=
  ⟨shaped.names, shaped.events, shaped.onCreate, shaped.props, shaped.signatures⟩

theorem shapedAsView_none : ShapedAsView S none := nofun

end

namespace Extractor

variable {N : Node → Prop} {S : Signature → Prop} {known : Memo → Prop} (kept : KeptFor N S known)
  (x : Extractor)
include kept

theorem ensures_settleBody (label : String) {body : Body} (every : body.Every S) :
    Action.Ensures known (¬ x.box.Readable) (x.settleBody label body) S := by
  cases body with
  | absent => exact Action.ensures_after (Action.ensures_pure kept.rule.empty)
  | closure signature => exact Action.ensures_pure every
  | shapeless offset =>
    exact Action.ensures_after (Action.ensures_pure kept.rule.unresolved)
  | elsewhere offset =>
    refine Action.ensures_bind (Toolbox.ensures_resolve kept x.box _ offset) fun result found => ?_
    cases result with
    | ok signature => exact Action.ensures_pure (found signature rfl)
    | error why =>
      exact Action.ensures_after (Action.ensures_pure kept.rule.unresolved)

theorem ensures_settle (label : String) (fits : Option String → Prop) {drafts : List Draft}
    (each : ∀ d ∈ drafts, d.Fits S fits) :
    Action.Ensures known (¬ x.box.Readable) (x.settle label drafts) fun ds =>
      ∀ d ∈ ds, fits d.name ∧ S d.signature := by
  induction drafts with
  | nil => exact Action.ensures_pure nofun
  | cons draft drafts ih =>
    obtain ⟨first, rest⟩ := List.forall_mem_cons.mp each
    cases draft with
    | nameless offset => exact Action.ensures_after (ih rest)
    | declared name body =>
      refine Action.ensures_bind (ensures_settleBody kept x label first.2) fun signature every => ?_
      refine Action.ensures_bind (ih rest) fun ds others => ?_
      exact Action.ensures_pure (List.forall_mem_cons.mpr ⟨⟨first.1, every⟩, others⟩)

theorem ensures_named (label : String) {root : List Node} (held : ∀ n ∈ root, N n) :
    Action.Ensures known (¬ x.box.Readable) (x.named label root) fun ds =>
      ∀ d ∈ ds, IsNamed d.name ∧ S d.signature := by
  refine ensures_settle kept x label IsNamed fun d mem => ?_
  obtain ⟨n, listed, rfl⟩ := List.mem_map.mp mem
  exact Draft.fits_named kept.rule x.source (held n (List.mem_of_mem_filter listed))

theorem ensures_unnamed (label : String) {root : List Node} (held : ∀ n ∈ root, N n) :
    Action.Ensures known (¬ x.box.Readable) (x.unnamed label root) fun ds =>
      ∀ d ∈ ds, d.name = none ∧ S d.signature := by
  refine ensures_settle kept x label (· = none) fun d mem => ?_
  obtain ⟨n, listed, rfl⟩ := List.mem_map.mp mem
  exact Draft.fits_unnamed kept.rule (held n (List.mem_of_mem_filter listed))

omit kept in
theorem ensures_entries (label : String) (nodes : List Node) :
    Action.Ensures known (¬ x.box.Readable) (x.entries label nodes) fun names =>
      ∀ name ∈ names, IsName name := by
  induction nodes with
  | nil => exact Action.ensures_pure nofun
  | cons n ns ih =>
    unfold entries
    split
    · next name read =>
      refine Action.ensures_bind ih fun names rest => ?_
      exact Action.ensures_pure (List.forall_mem_cons.mpr ⟨isName_of_readableText? read, rest⟩)
    · exact Action.ensures_after ih

omit kept in
theorem ensures_moduleName (root : List Node) (defaultName : Option String) :
    Action.Ensures known (¬ x.box.Readable) (x.moduleName root defaultName) fun _ => True := by
  unfold moduleName
  split
  · exact Action.ensures_pure trivial
  · exact Action.ensures_after (Action.ensures_pure trivial)

theorem ensures_surface {root : List Node} (held : ∀ n ∈ root, N n)
    (defaultName : Option String) :
    Action.Ensures known (¬ x.box.Readable) (x.surface root defaultName) fun m =>
      m.Shaped S ∧ m.view = none := by
  refine Action.ensures_after ?_
  refine Action.ensures_bind (ensures_moduleName x root defaultName) fun name _ => ?_
  refine Action.ensures_bind (ensures_named kept x _ held) fun functions hf => ?_
  refine Action.ensures_bind (ensures_named kept x _ held) fun asyncFunctions ha => ?_
  refine Action.ensures_bind (ensures_entries x _ _) fun events he => ?_
  refine Action.ensures_bind (ensures_named kept x _ held) fun properties hp => ?_
  refine Action.ensures_bind (ensures_named kept x _ held) fun props hq => ?_
  refine Action.ensures_bind (ensures_unnamed kept x _ held) fun onCreate hc => ?_
  -- Taking out parameters leaves the names and the types of the rest as they are.
  have props' : ∀ d ∈ props.map Declaration.withoutView,
      IsNamed d.name ∧ S d.signature := by
    intro d mem
    obtain ⟨e, listed, rfl⟩ := List.mem_map.mp mem
    exact ⟨(hq e listed).1, kept.rule.withoutView _ (hq e listed).2⟩
  refine Action.ensures_pure ⟨⟨?_, he, fun d mem => (hc d mem).1, ?_, ?_⟩, rfl⟩
  · simp only [List.forall_mem_append]
    exact ⟨⟨⟨fun d mem => (hf d mem).1, fun d mem => (ha d mem).1⟩,
      fun d mem => (hp d mem).1⟩, fun d mem => (props' d mem).1⟩
  · intro d mem p param
    obtain ⟨e, -, rfl⟩ := List.mem_map.mp mem
    exact name_ne_view_of_mem param
  · simp only [Definition.declarations, List.forall_mem_append]
    exact ⟨⟨⟨⟨fun d mem => (hf d mem).2, fun d mem => (ha d mem).2⟩,
      fun d mem => (hp d mem).2⟩, fun d mem => (props' d mem).2⟩, fun d mem => (hc d mem).2⟩

theorem ensures_chained {root : List Node} (held : ∀ n ∈ root, N n) (defaultName : Option String)
    {chain : ViewChain}
    (views : Action.Ensures known (¬ x.box.Readable) (x.viewOf chain) (ShapedAsView S)) :
    Action.Ensures known (¬ x.box.Readable) (x.chained root defaultName chain) fun m =>
      m.Shaped S ∧ ShapedAsView S m.view := by
  unfold chained
  refine Action.ensures_bind (ensures_surface kept x held defaultName) fun m shaped => ?_
  refine Action.ensures_bind views fun view fits => ?_
  exact Action.ensures_pure ⟨shaped.1.withView view, fits⟩

theorem ensures_viewOf {chain : ViewChain} (each : chain.Each N) :
    Action.Ensures known (¬ x.box.Readable) (x.viewOf chain) (ShapedAsView S) := by
  induction chain with
  | none =>
    rw [viewOf]
    exact Action.ensures_pure shapedAsView_none
  | broken why =>
    rw [viewOf]
    exact Action.ensures_after (Action.ensures_pure shapedAsView_none)
  | nested root name more ih =>
    unfold viewOf
    refine Action.ensures_bind (ensures_chained kept x each.1 name (ih each.2)) fun m shaped => ?_
    refine Action.ensures_pure ?_
    rintro v ⟨⟩
    exact ⟨shaped.1.withView none, rfl⟩

theorem ensures_extract {root : List Node} (held : ∀ n ∈ root, N n)
    (defaultName : Option String) :
    Action.Ensures known (¬ x.box.Readable) (x.extract root defaultName) fun m =>
      m.Shaped S ∧ ShapedAsView S m.view :=
  ensures_chained kept x held defaultName
    (ensures_viewOf kept x (ViewChain.each_ofRoot kept.rule x.source held))

end Extractor

end ModuleStubs
