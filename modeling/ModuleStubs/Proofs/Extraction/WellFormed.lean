import ModuleStubs.Proofs.Extraction.Contract
import ModuleStubs.Proofs.Stub.Settled
import ModuleStubs.Proofs.Tool.Account
import ModuleStubs.Stub.Output

/-! Extracted definitions are well formed, whatever the tree, the source and the tool say,
and stubs can be written for them. Signatures that are kept for later lookups are
settled; this is what all the work on the nodes preserves. -/

namespace ModuleStubs

/-- What every extracted definition satisfies, its view apart. -/
structure Definition.WellFormed (m : Definition) : Prop where
  names : ∀ d ∈ m.functions ++ m.asyncFunctions ++ m.properties ++ m.props, IsNamed d.name
  events : ∀ name ∈ m.events, IsName name
  onCreate : ∀ d ∈ m.onCreate, d.name = none
  props : ∀ d ∈ m.props, ∀ p ∈ d.signature.parameters, p.name ≠ some (Wording.ofString "view")
  types : ∀ d ∈ m.declarations, d.signature.Settled

def Memo.Settled (memo : Memo) : Prop := memo.Every Signature.Settled

theorem Memo.settled_nil : Memo.Settled [] := nofun

theorem Signature.settled_iff_every {s : Signature} :
    s.Settled ↔ s.Every Descriptor.Settled :=
  ⟨fun settled => every_iff.mpr ⟨settled.parameters, settled.result⟩,
    fun every => ⟨(every_iff.mp every).1, (every_iff.mp every).2⟩⟩

theorem signatureRule_settled : SignatureRule (fun _ => True) Signature.Settled := by
  have same : Signature.Settled = Signature.Every Descriptor.Settled :=
    funext fun _ => propext Signature.settled_iff_every
  rw [same]
  exact signatureRule_every Descriptor.settled_ofName

theorem Definition.Shaped.wellFormed {m : Definition} (shaped : m.Shaped Signature.Settled) :
    m.WellFormed :=
  ⟨shaped.names, shaped.events, shaped.onCreate, shaped.props, shaped.signatures⟩

namespace Extractor

variable (x : Extractor)

abbrev Delivers {α : Type} (a : Action α) (post : α → Prop) : Prop :=
  Action.Ensures Memo.Settled (¬ x.box.Readable) a post

def FitsAsView (view : Option Definition) : Prop :=
  ∀ v, view = some v → v.WellFormed ∧ v.view = none

theorem delivers_extract (root : List Node) (defaultName : Option String) :
    x.Delivers (x.extract root defaultName) fun m => m.WellFormed ∧ FitsAsView m.view := by
  have kept := keptFor_every signatureRule_settled
  refine (ensures_extract kept x (fun _ _ => trivial) defaultName).mono ?_
  rintro m ⟨shaped, views⟩
  exact ⟨shaped.wellFormed, fun v has => ⟨(views v has).1.wellFormed, (views v has).2⟩⟩

end Extractor

theorem StubOutput.prepare_of_settled {m : Definition}
    (settled : ∀ d ∈ m.declarations, d.signature.Settled) (s : Session) :
    ∃ unit t, m.unit = .ok unit ∧ (prepare m).outcome s = (.ok unit, t) := by
  obtain ⟨unit, hasUnit⟩ := Definition.unit_of_settled settled
  obtain ⟨t, warned, -⟩ := Action.outcome_warnings m.aliasWarnings s
  refine ⟨unit, t, hasUnit, ?_⟩
  rw [prepare, Action.outcome_bind_of_ok warned, hasUnit]
  rfl

namespace Extractor

/-- Extraction has a result if every reply can be read. Its result and the view of it are
well formed, the view has no view, and stubs can be prepared for both; the signatures
that are kept for later lookups stay settled. -/
theorem extract_wellFormed (x : Extractor) (root : List Node) (defaultName : Option String)
    (s : Session) (kept : s.memo.Settled) :
    (x.box.Readable → ∃ m t, (x.extract root defaultName).outcome s = (.ok m, t)) ∧
      ∀ m t, (x.extract root defaultName).outcome s = (.ok m, t) →
        t.memo.Settled ∧ (∀ v, m.view = some v → v.view = none) ∧
        ∀ d, d = m ∨ m.view = some d → d.WellFormed ∧
          ∀ u, ∃ unit later, d.unit = .ok unit ∧
            (StubOutput.prepare d).outcome u = (.ok unit, later) := by
  have delivered := x.delivers_extract root defaultName s kept
  constructor
  · intro readable
    cases reached : (x.extract root defaultName).outcome s with
    | mk result t =>
      rw [reached] at delivered
      cases result with
      | ok m => exact ⟨m, t, rfl⟩
      | error why => exact absurd readable delivered.2
  · intro m t reached
    rw [reached] at delivered
    obtain ⟨settled, formed, views⟩ := delivered
    refine ⟨settled, fun v has => (views v has).2, fun d which => ?_⟩
    have good : d.WellFormed := by
      rcases which with rfl | has
      · exact formed
      · exact (views d has).1
    exact ⟨good, StubOutput.prepare_of_settled good.types⟩

def sampleBody : List Node :=
  [⟨none, none, some "Events", none, none, [⟨none, none, none, some 3, some 1, []⟩]⟩]

def sampleView : Node :=
  ⟨none, none, some "View", none, none,
    [⟨none, none, none, some 2, some 1, []⟩,
      ⟨none, none, none, none, none,
        [⟨none, none, none, none, none, [⟨none, none, none, none, none, sampleBody⟩]⟩]⟩]⟩

def sampleRoot : List Node :=
  [⟨none, none, some "Name", none, none, [⟨none, none, none, some 0, some 1, []⟩]⟩,
    ⟨none, none, some "Function", none, none, [⟨none, none, none, some 1, some 1, []⟩]⟩,
    sampleView]

def sampleExtractor : Extractor :=
  ⟨{ tool := fun _ _ => .missing, settings := {} }, ⟨⟨.relative, ["M.swift"]⟩, "MfVe"⟩⟩

theorem sample_wellFormed :
    ∃ m t, (sampleExtractor.extract sampleRoot none).outcome {} = (.ok m, t) ∧
      (m.name, m.functions.map (·.name), m.view.map (·.events)) =
        ("M", [some "f"], some ["e"]) ∧
      m.WellFormed ∧ ∀ v, m.view = some v → v.WellFormed := by
  have readable : sampleExtractor.box.Readable := Toolbox.readable_of_missing fun _ _ => rfl
  obtain ⟨returns, formed⟩ := extract_wellFormed sampleExtractor sampleRoot none {} Memo.settled_nil
  obtain ⟨m, t, reached⟩ := returns readable
  obtain ⟨-, -, good⟩ := formed m t reached
  have viewName : viewName? sampleExtractor.source sampleView = some "V" := by decide +kernel
  have chain : ViewChain.ofRoot sampleExtractor.source sampleRoot =
      .nested sampleBody (some "V") .none := by
    rw [ViewChain.ofRoot_of_body (show viewNode? sampleRoot = some sampleView from rfl) rfl,
      ViewChain.ofRoot_of_none rfl, viewName]
  have shown : ((sampleExtractor.chained sampleRoot none (.nested sampleBody (some "V") .none)
      |>.outcome {})).1.toOption.map
        (fun m => (m.name, m.functions.map (·.name), m.view.map (·.events))) =
      some ("M", [some "f"], some ["e"]) := by
    rw [chained, viewOf, chained, viewOf]
    decide +kernel
  rw [← chain] at shown
  change ((sampleExtractor.extract sampleRoot none).outcome {}).1.toOption.map _ = _ at shown
  rw [reached] at shown
  exact ⟨m, t, reached, Option.some.inj shown, (good m (.inl rfl)).1,
    fun v has => (good v (.inr has)).1⟩

end Extractor

end ModuleStubs
