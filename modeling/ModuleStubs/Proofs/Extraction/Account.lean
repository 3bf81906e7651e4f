import ModuleStubs.Extraction.Definition
import ModuleStubs.Proofs.Tool.Account

/-! The account of an extraction: for every draft what it gives, the call it makes and the
soft failure it leaves, group after group, then the same for the chain of views. -/

namespace ModuleStubs

namespace Extractor

variable (x : Extractor) (label : String)

def namelessNote (offset : Option Int) : Diagnostic :=
  ⟨.warning, s!"{label} declaration at offset {offsetText offset} has no readable name",
    some x.source.path⟩

def entryNote (offset : Option Int) : Diagnostic :=
  ⟨.warning, s!"{label} entry at offset {offsetText offset} has no readable name",
    some x.source.path⟩

def bodilessNote : Diagnostic :=
  ⟨.warning, s!"{label} declaration has no body to read types from", some x.source.path⟩

def shapelessNote (offset : Option Int) : Diagnostic :=
  ⟨.warning, s!"{label} at offset {offsetText offset}: {noClosureText}", some x.source.path⟩

def lostNote (offset : Option Int) (why : ToolFault) : Diagnostic :=
  ⟨.error, s!"Type lookup for {label} at offset {offsetText offset} failed: " ++
    why.message x.box.settings, some x.source.path⟩

/-- What a body gives and tells. A lookup that fails leaves one error, and a signature
without parameters and of unknown result. -/
inductive BodyTold (before : List Call) : Body → Signature → Tale → Prop
  | absent : BodyTold before .absent {} ⟨[], [x.bodilessNote label]⟩
  | closure (signature : Signature) : BodyTold before (.closure signature) signature {}
  | shapeless (offset : Option Int) :
    BodyTold before (.shapeless offset) .unresolved ⟨[], [x.shapelessNote label offset]⟩
  | placeless : BodyTold before (.elsewhere none) .unresolved
      ⟨[], [x.lostNote label none (.noOffset x.source.path)]⟩
  | found {offset : Int} {signature : Signature} {tale : Tale}
    (given : x.box.LookedUp x.source.path offset before (.ok signature) tale) :
    BodyTold before (.elsewhere (some offset)) signature tale
  | lost {offset : Int} {why : ToolFault}
    (given : x.box.requestResult x.source.path offset
      (x.box.tool before (.request x.source.path offset)) = .ok (.error why)) :
    BodyTold before (.elsewhere (some offset)) .unresolved
      ⟨[.request x.source.path offset], [x.lostNote label (some offset) why]⟩

inductive DraftsTold : List Call → List Draft → List Declaration → Tale → Prop
  | nil {before : List Call} : DraftsTold before [] [] {}
  | nameless {before : List Call} {offset : Option Int} {drafts : List Draft}
    {ds : List Declaration} {tale : Tale} (rest : DraftsTold before drafts ds tale) :
    DraftsTold before (.nameless offset :: drafts) ds (⟨[], [x.namelessNote label offset]⟩ ++ tale)
  | declared {before : List Call} {name : Option String} {body : Body} {signature : Signature}
    {own : Tale} {drafts : List Draft} {ds : List Declaration} {tale : Tale}
    (first : x.BodyTold label before body signature own)
    (rest : DraftsTold (before ++ own.calls) drafts ds tale) :
    DraftsTold before (.declared name body :: drafts) (⟨name, signature⟩ :: ds) (own ++ tale)

variable {x label} in
theorem BodyTold.of_fault {before : List Call} {offset : Int} {signature : Signature} {tale : Tale}
    (told : x.BodyTold label before (.elsewhere (some offset)) signature tale) {why : ToolFault}
    (given : x.box.requestResult x.source.path offset
      (x.box.tool before (.request x.source.path offset)) = .ok (.error why))
    (asked : tale.calls ≠ []) : signature = .unresolved ∧
      tale = ⟨[.request x.source.path offset], [x.lostNote label (some offset) why]⟩ := by
  cases told with
  | found found =>
    cases found with
    | kept => exact absurd rfl asked
    | asked other =>
      rw [given] at other
      cases other
  | lost other =>
    rw [given] at other
    cases other
    exact ⟨rfl, rfl⟩

theorem accounts_settleBody (s : Session) (body : Body) :
    x.box.Accounts (x.settleBody label body) s (x.BodyTold label s.calls body) := by
  cases body with
  | absent => exact Toolbox.accounts_last rfl .absent
  | closure signature => exact Toolbox.accounts_pure (.closure signature)
  | shapeless offset => exact Toolbox.accounts_last rfl (.shapeless offset)
  | elsewhere offset =>
    cases offset with
    | none => exact Toolbox.accounts_last rfl .placeless
    | some offset =>
      refine Toolbox.accounts_bind (x.box.accounts_lookup s x.source.path offset) ?_
      intro result told t calls looked
      cases result with
      | ok signature =>
        refine Toolbox.accounts_pure ?_
        rw [Tale.append_empty]
        exact .found looked
      | error why =>
        cases looked with
        | asked given => exact Toolbox.accounts_last rfl (.lost given)

theorem accounts_settle (s : Session) (drafts : List Draft) :
    x.box.Accounts (x.settle label drafts) s (x.DraftsTold label s.calls drafts) := by
  induction drafts generalizing s with
  | nil => exact Toolbox.accounts_pure .nil
  | cons draft drafts ih =>
    cases draft with
    | nameless offset =>
      refine Toolbox.accounts_after rfl fun t calls => (ih t).mono fun ds tale told => ?_
      rw [calls] at told
      exact .nameless told
    | declared name body =>
      refine Toolbox.accounts_bind (x.accounts_settleBody label s body) ?_
      intro signature own t calls first
      refine Toolbox.accounts_bind_pure (ih t) fun ds rest told => ?_
      rw [calls] at told
      exact .declared first told

theorem accounts_entries (s : Session) (nodes : List Node) :
    x.box.Accounts (x.entries label nodes) s fun names tale =>
      names = nodes.filterMap x.source.readableText? ∧
      tale = ⟨[], (nodes.filter fun n => (x.source.readableText? n).isNone).map fun n =>
        x.entryNote label n.offset⟩ := by
  induction nodes generalizing s with
  | nil => exact Toolbox.accounts_pure ⟨rfl, rfl⟩
  | cons n nodes ih =>
    unfold entries
    cases read : x.source.readableText? n with
    | some name =>
      refine Toolbox.accounts_bind_pure (ih s) ?_
      rintro names tale ⟨rfl, rfl⟩
      simp [read]
    | none =>
      refine Toolbox.accounts_after rfl fun t _ => (ih t).mono ?_
      rintro names tale ⟨rfl, rfl⟩
      refine ⟨by simp [read], ?_⟩
      rw [List.filter_cons_of_pos (by simp [read])]
      rfl

def chosenName? (root : List Node) (defaultName : Option String) : Option String :=
  (givenName? x.source root).or (defaultName.filter (· ≠ ""))

def stemNote : Diagnostic :=
  ⟨.warning, s!"Module definition has no Name; using '{x.source.path.stem}'", some x.source.path⟩

theorem accounts_moduleName (s : Session) (root : List Node) (defaultName : Option String) :
    x.box.Accounts (x.moduleName root defaultName) s fun name tale =>
      name = (x.chosenName? root defaultName).getD x.source.path.stem ∧
      tale = ⟨[], if (x.chosenName? root defaultName).isSome then [] else [x.stemNote]⟩ := by
  unfold moduleName chosenName?
  cases (givenName? x.source root).or (defaultName.filter (· ≠ "")) with
  | some name => exact Toolbox.accounts_pure ⟨rfl, rfl⟩
  | none => exact Toolbox.accounts_last rfl ⟨rfl, rfl⟩

structure GroupTales where
  name : Tale
  functions : Tale
  asyncFunctions : Tale
  events : Tale
  properties : Tale
  props : Tale
  onCreate : Tale

def GroupTales.all (t : GroupTales) : Tale :=
  t.name ++ (t.functions ++ (t.asyncFunctions ++ (t.events ++ (t.properties ++
    (t.props ++ t.onCreate)))))

/-- The groups of a module, each told after those before it. Neither the name nor the
events call for the tool. -/
structure SurfaceTold (root : List Node) (defaultName : Option String) (before : List Call)
    (m : Definition) (t : GroupTales) : Prop where
  name : m.name = (x.chosenName? root defaultName).getD x.source.path.stem
  nameTale : t.name = ⟨[], if (x.chosenName? root defaultName).isSome then [] else [x.stemNote]⟩
  functions : x.DraftsTold Label.function before (namedDrafts x.source Label.function root)
    m.functions t.functions
  asyncFunctions : x.DraftsTold Label.asyncFunction (before ++ t.functions.calls)
    (namedDrafts x.source Label.asyncFunction root) m.asyncFunctions t.asyncFunctions
  events : m.events = (groupedNodes Label.events root).filterMap x.source.readableText?
  eventsTale : t.events = ⟨[], ((groupedNodes Label.events root).filter fun n =>
    (x.source.readableText? n).isNone).map fun n => x.entryNote Label.events n.offset⟩
  properties : x.DraftsTold Label.property
    (before ++ t.functions.calls ++ t.asyncFunctions.calls)
    (namedDrafts x.source Label.property root) m.properties t.properties
  props : ∃ ds, m.props = ds.map Declaration.withoutView ∧ x.DraftsTold Label.prop
    (before ++ t.functions.calls ++ t.asyncFunctions.calls ++ t.properties.calls)
    (namedDrafts x.source Label.prop root) ds t.props
  onCreate : x.DraftsTold Label.onCreate
    (before ++ t.functions.calls ++ t.asyncFunctions.calls ++ t.properties.calls ++ t.props.calls)
    (unnamedDrafts Label.onCreate root) m.onCreate t.onCreate
  view : m.view = none

theorem accounts_surface (s : Session) (root : List Node) (defaultName : Option String) :
    x.box.Accounts (x.surface root defaultName) s fun m tale =>
      ∃ t, tale = t.all ∧ x.SurfaceTold root defaultName s.calls m t := by
  refine Toolbox.accounts_after rfl fun s₀ calls₀ => ?_
  refine Toolbox.accounts_bind (x.accounts_moduleName s₀ root defaultName) ?_
  rintro name nameTale s₁ calls₁ ⟨hname, hnameTale⟩
  refine Toolbox.accounts_bind (x.accounts_settle Label.function s₁ _) ?_
  intro functions functionsTale s₂ calls₂ hf
  refine Toolbox.accounts_bind (x.accounts_settle Label.asyncFunction s₂ _) ?_
  intro asyncFunctions asyncTale s₃ calls₃ ha
  refine Toolbox.accounts_bind (x.accounts_entries Label.events s₃ _) ?_
  rintro events eventsTale s₄ calls₄ ⟨he, heTale⟩
  refine Toolbox.accounts_bind (x.accounts_settle Label.property s₄ _) ?_
  intro properties propertiesTale s₅ calls₅ hp
  refine Toolbox.accounts_bind (x.accounts_settle Label.prop s₅ _) ?_
  intro props propsTale s₆ calls₆ hq
  refine Toolbox.accounts_bind_pure (x.accounts_settle Label.onCreate s₆ _) ?_
  intro onCreate onCreateTale hc
  -- Every group sees the calls of the groups before it.
  rw [hnameTale, List.append_nil, calls₀] at calls₁
  rw [calls₁] at hf calls₂
  rw [calls₂] at ha calls₃
  rw [heTale, List.append_nil, calls₃] at calls₄
  rw [calls₄] at hp calls₅
  rw [calls₅] at hq calls₆
  rw [calls₆] at hc
  exact ⟨⟨nameTale, functionsTale, asyncTale, eventsTale, propertiesTale, propsTale, onCreateTale⟩,
    rfl, hname, hnameTale, hf, ha, he, heTale, hp, ⟨props, rfl, hq⟩, hc, rfl⟩

/-- What a chain of views gives and tells. The views inside the first one tell as it does,
though they are not kept. -/
inductive ChainTold : ViewChain → List Call → Option Definition → Tale → Prop
  | none {before : List Call} : ChainTold .none before none {}
  | broken {before : List Call} (why : ViewFault) : ChainTold (.broken why) before none
      ⟨[], [⟨.warning, s!"Could not parse view definition: {why.message}", some x.source.path⟩]⟩
  | nested {root : List Node} {name : Option String} {more : ViewChain} {before : List Call}
    {m : Definition} {t : GroupTales} {inner : Option Definition} {rest : Tale}
    (own : x.SurfaceTold root name before m t)
    (views : ChainTold more (before ++ t.all.calls) inner rest) :
    ChainTold (.nested root name more) before (some { m with view := Option.none }) (t.all ++ rest)

def ModuleTold (root : List Node) (defaultName : Option String) (chain : ViewChain)
    (before : List Call) (m : Definition) (tale : Tale) : Prop :=
  ∃ own t rest, x.SurfaceTold root defaultName before own t ∧
    x.ChainTold chain (before ++ t.all.calls) m.view rest ∧
    m = { own with view := m.view } ∧ tale = t.all ++ rest

theorem accounts_chained (s : Session) (root : List Node) (defaultName : Option String)
    {chain : ViewChain}
    (views : ∀ t, x.box.Accounts (x.viewOf chain) t (x.ChainTold chain t.calls)) :
    x.box.Accounts (x.chained root defaultName chain) s
      (x.ModuleTold root defaultName chain s.calls) := by
  unfold chained
  refine Toolbox.accounts_bind (x.accounts_surface s root defaultName) ?_
  rintro own - s₁ calls ⟨t, rfl, told⟩
  refine Toolbox.accounts_bind_pure (views s₁) fun view rest nested => ?_
  rw [calls] at nested
  exact ⟨own, t, rest, told, nested, rfl, rfl⟩

theorem accounts_viewOf (s : Session) (chain : ViewChain) :
    x.box.Accounts (x.viewOf chain) s (x.ChainTold chain s.calls) := by
  induction chain generalizing s with
  | none =>
    rw [viewOf]
    exact Toolbox.accounts_pure .none
  | broken why =>
    rw [viewOf]
    exact Toolbox.accounts_last rfl (.broken why)
  | nested root name more ih =>
    rw [viewOf]
    refine Toolbox.accounts_bind_pure (x.accounts_chained s root name ih) ?_
    rintro m - ⟨own, t, rest, told, nested, whole, rfl⟩
    rw [whole]
    exact ChainTold.nested (m := own) told nested

theorem accounts_extract (s : Session) (root : List Node) (defaultName : Option String) :
    x.box.Accounts (x.extract root defaultName) s
      (x.ModuleTold root defaultName (ViewChain.ofRoot x.source root) s.calls) :=
  x.accounts_chained s root defaultName fun t => x.accounts_viewOf t _

end Extractor

end ModuleStubs
