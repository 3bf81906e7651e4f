import ModuleStubs.Proofs.Disk.Growth
import ModuleStubs.Proofs.Extraction.Contract
import ModuleStubs.Proofs.Stub.Settled

/-! Where definitions come from. What a session keeps has been left by lookups, from an empty
memo on; so every type in an extracted definition was read from a name. -/

namespace ModuleStubs

/-- What lookups have left for later ones, whatever was asked. -/
inductive Memo.Reached : Memo → Prop
  | nil : Reached []
  | lookup {s : Session} (before : Reached s.memo) (box : Toolbox) (path : Path) (offset : Int) :
    Reached ((box.lookup path offset).outcome s).2.memo

section

variable {N : Node → Prop} {S : Signature → Prop} (rule : SignatureRule N S)
include rule

theorem Memo.Reached.every {memo : Memo} (reached : memo.Reached) : memo.Every S := by
  induction reached with
  | nil => exact Memo.every_nil
  | lookup before box path offset ih =>
    exact (Toolbox.ensures_lookup rule box path offset _ ih).1

theorem keptFor_reached : KeptFor N S Memo.Reached := by
  refine ⟨rule, fun box path offset s reached => ?_⟩
  have ensured := Toolbox.ensures_lookup rule box path offset s (reached.every rule)
  exact ⟨.lookup reached box path offset, ensured.2⟩

/-- All signatures of what is extracted are of a rule, in the view as well. -/
theorem Definition.throughout_of_extract {x : Extractor} {root : List Node}
    (held : ∀ n ∈ root, N n) {defaultName : Option String} {s t : Session}
    (reached : s.memo.Reached) {m : Definition}
    (outcome : (x.extract root defaultName).outcome s = (.ok m, t)) : m.Throughout S := by
  have ensured := Extractor.ensures_extract (keptFor_reached rule) x held defaultName s reached
  rw [outcome] at ensured
  obtain ⟨-, shaped, views⟩ := ensured
  refine .intro shaped.signatures fun v has => ?_
  obtain ⟨nested, last⟩ := views v has
  exact .intro nested.signatures fun u more => by rw [last] at more; cases more

end

/-- What an extraction gives, from some nodes of some source and after some lookups. -/
def Definition.Extracted (m : Definition) : Prop :=
  ∃ (x : Extractor) (root : List Node) (defaultName : Option String) (s t : Session),
    s.memo.Reached ∧ (x.extract root defaultName).outcome s = (.ok m, t)

def Definition.Reported (m : Definition) : Prop :=
  ∃ (x : Extractor) (text : String) (value : Json) (tree : Node) (root : List Node)
    (defaultName : Option String) (s t : Session),
    Json.read text = .ok value ∧ Node.ofJson? value = some tree ∧
      tree.searchRoot.root = some root ∧ s.memo.Reached ∧
      (x.extract root defaultName).outcome s = (.ok m, t)

theorem Definition.Reported.extracted {m : Definition} (reported : m.Reported) : m.Extracted := by
  obtain ⟨x, -, -, -, root, defaultName, s, t, -, -, -, reached, outcome⟩ := reported
  exact ⟨x, root, defaultName, s, t, reached, outcome⟩

theorem Definition.Extracted.everyType {m : Definition} (extracted : m.Extracted) :
    m.EveryType Descriptor.IsRead := by
  obtain ⟨x, root, defaultName, s, t, reached, outcome⟩ := extracted
  have rule := signatureRule_every Descriptor.isRead_ofName
  exact throughout_of_extract rule (fun _ _ => trivial) reached outcome

/-- Stubs can be written for all that is extracted. -/
theorem Definition.Extracted.settled {m : Definition} (extracted : m.Extracted) :
    ∀ d ∈ m.declarations, d.signature.Settled := by
  have settled : ∀ type : Descriptor, type.IsRead → type.Settled := by
    rintro _ ⟨name, rfl⟩
    exact Descriptor.settled_ofName name
  intro d mem
  cases extracted.everyType with
  | intro own =>
    obtain ⟨parameters, result⟩ := Signature.every_iff.mp (own d mem)
    exact ⟨fun p listed => settled _ (parameters p listed), settled _ result⟩

theorem Definition.extracted_of_surface {x : Extractor} {root : List Node}
    {defaultName : Option String} {m : Definition} {t : Session} (viewless : viewNode? root = none)
    (surface : (x.surface root defaultName).outcome {} = (.ok m, t)) :
    Definition.Extracted { m with view := none } := by
  refine ⟨x, root, defaultName, {}, t, .nil, ?_⟩
  rw [Extractor.extract, ViewChain.ofRoot_of_none viewless, Extractor.chained,
    Action.outcome_bind_of_ok surface, Extractor.viewOf]
  rfl

/-- What can be seen without the view of what nodes say is seen in something that is extracted. -/
theorem Definition.exists_of_surface {α : Type} {x : Extractor} {root : List Node}
    {defaultName : Option String} {seen : Definition → α} {a : α}
    (blind : ∀ m, seen { m with view := none } = seen m) (viewless : viewNode? root = none)
    (shown : ((x.surface root defaultName).outcome {}).1.toOption.map seen = some a) :
    ∃ m : Definition, m.Extracted ∧ m.view = none ∧ seen m = a := by
  obtain ⟨m, result, data⟩ := Option.map_eq_some_iff.mp shown
  have extracted := extracted_of_surface viewless (Prod.ext (eq_ok_of_toOption result) rfl)
  exact ⟨{ m with view := none }, extracted, rfl, (blind m).trans data⟩

def nameRoot (length : Int) : List Node :=
  [⟨none, none, some Label.name, none, none, [⟨none, none, none, some 0, some length, []⟩]⟩]

def nameExtractor (text : String) : Extractor :=
  ⟨{ tool := fun _ _ => .missing, settings := {} }, ⟨⟨.relative, ["M.swift"]⟩, text⟩⟩

theorem Definition.extracted_of_name {text name : String} {length : Int}
    (given : givenName? (nameExtractor text).source (nameRoot length) = some name) :
    Definition.Extracted { name := name } := by
  let x := nameExtractor text
  let s : Session := Session.add (.logged ⟨Extractor.stage, .debug,
    s!"Extracting module definition from {x.source.path.text}"⟩) {}
  have called : (x.moduleName (nameRoot length) none).outcome s = (.ok name, s) := by
    rw [Extractor.moduleName, given]
    rfl
  have surface : (x.surface (nameRoot length) none).outcome {} = (.ok { name := name }, s) := by
    rw [Extractor.surface, Action.outcome_bind_of_ok (Action.outcome_log _ _ _ _),
      Action.outcome_bind_of_ok called]
    rfl
  exact Definition.extracted_of_surface rfl surface

theorem Extractor.ensures_reached (x : Extractor) (root : List Node) (defaultName : Option String) :
    Action.Ensures Memo.Reached True (x.extract root defaultName) fun m =>
      ∃ s t, s.memo.Reached ∧ (x.extract root defaultName).outcome s = (.ok m, t) := by
  intro s reached
  have rule := signatureRule_every Descriptor.isRead_ofName
  have ensured :=
    ensures_extract (keptFor_reached rule) x (fun _ _ => trivial : ∀ n ∈ root, _) defaultName s
      reached
  refine ⟨ensured.1, ?_⟩
  cases outcome : (x.extract root defaultName).outcome s with
  | mk result t =>
    cases result with
    | ok m => exact ⟨s, t, reached, outcome⟩
    | error why => trivial

end ModuleStubs
