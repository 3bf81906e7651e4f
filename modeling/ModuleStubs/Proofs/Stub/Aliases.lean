import Mathlib.Data.List.Sort
import Mathlib.Data.String.Basic
import ModuleStubs.Proofs.Stub.Settled

/-! The aliases of a module are the names that its declarations refer to, each once and
in order. So the types of a stub are always known in its file, and the aliases depend on
which declarations there are, but not on their order, number or kind. -/

namespace ModuleStubs

/-- A reference to the name, below any number of array layers. -/
inductive Descriptor.RefersTo (name : Wording) : Descriptor → Prop
  | reference : RefersTo name (.reference name)
  | array {element : Descriptor} (inner : RefersTo name element) : RefersTo name (.array element)

def Declaration.RefersTo (d : Declaration) (name : Wording) : Prop :=
  (∃ p ∈ d.signature.parameters, p.type.RefersTo name) ∨ d.signature.result.RefersTo name

def Definition.Declares (m : Definition) (d : Declaration) : Prop :=
  d ∈ m.functions ∨ d ∈ m.asyncFunctions ∨ d ∈ m.properties ∨ d ∈ m.props ∨ d ∈ m.onCreate

namespace StubUnit

def aliasNames (u : StubUnit) : List Wording := u.aliases.map (·.name)

def Resolves (u : StubUnit) (isAsync : Bool) (d : Declaration) (f : FunctionStub) : Prop :=
  d.stub isAsync = .ok f ∧ ∀ name, d.RefersTo name → u.aliasNames.count name = 1

end StubUnit

theorem Descriptor.referenced?_innermost_iff {d : Descriptor} {name : Wording} :
    d.innermost.referenced? = some name ↔ d.RefersTo name := by
  induction d with
  | array element ih =>
    rw [innermost, ih]
    exact ⟨.array, fun | .array inner => inner⟩
  | reference other =>
    simp only [innermost, referenced?, Option.some.injEq]
    exact ⟨fun same => same ▸ .reference, fun | .reference => rfl⟩
  | primitive other => exact ⟨nofun, nofun⟩
  | unknown => exact ⟨nofun, nofun⟩
  | void => exact ⟨nofun, nofun⟩

theorem Declaration.refersTo_iff {d : Declaration} {name : Wording} :
    d.RefersTo name ↔ ∃ type ∈ d.signature.types, type.RefersTo name := by
  simp [RefersTo, Signature.types, or_and_right, exists_or]

namespace Definition

variable {m n : Definition}

theorem mem_declarations {d : Declaration} : d ∈ m.declarations ↔ m.Declares d := by
  simp [declarations, Declares]

theorem mem_typesToStub {name : Wording} :
    name ∈ m.typesToStub ↔ ∃ d, m.Declares d ∧ d.RefersTo name := by
  simp only [typesToStub, SortedSet.mem_ofTexts, List.mem_filterMap, List.mem_flatMap,
    Descriptor.referenced?_innermost_iff, mem_declarations, Declaration.refersTo_iff]
  constructor
  · rintro ⟨type, ⟨d, declared, mem⟩, refers⟩
    exact ⟨d, declared, type, mem, refers⟩
  · rintro ⟨d, declared, type, mem, refers⟩
    exact ⟨type, ⟨d, declared, mem⟩, refers⟩

theorem pairwise_typesToStub (m : Definition) : m.typesToStub.Pairwise (· < ·) :=
  SortedSet.pairwise_ofTexts _

theorem count_typesToStub {name : Wording} (mem : name ∈ m.typesToStub) :
    m.typesToStub.count name = 1 :=
  List.count_eq_one_of_mem (m.pairwise_typesToStub.imp ne_of_irrefl) mem

theorem typesToStub_congr (same : ∀ d, n.Declares d ↔ m.Declares d) :
    n.typesToStub = m.typesToStub := by
  refine n.pairwise_typesToStub.eq_of_mem_iff m.pairwise_typesToStub fun name => ?_
  simp only [mem_typesToStub, same]

theorem resolves_of_forall₂ {u : StubUnit} (known : u.aliasNames = m.typesToStub) {isAsync : Bool}
    {ds : List Declaration} {fs : List FunctionStub} (declared : ∀ d ∈ ds, m.Declares d)
    (pairs : List.Forall₂ (fun d f => Declaration.stub isAsync d = .ok f) ds fs) :
    List.Forall₂ (u.Resolves isAsync) ds fs := by
  induction pairs with
  | nil => exact .nil
  | cons stubbed rest ih =>
    obtain ⟨first, others⟩ := List.forall_mem_cons.mp declared
    refine .cons ⟨stubbed, fun name refers => ?_⟩ (ih others)
    rw [known]
    exact count_typesToStub (mem_typesToStub.mpr ⟨_, first, refers⟩)

/-- If the primitive names of a module have keywords, it has a unit of stubs. Its aliases
increase strictly and are the names that declarations refer to; so each name in a stub has
one alias, and a module with the same declarations has the same aliases, whatever their
order, number and kinds and whatever the view. -/
theorem unit_closed_under_names (m : Definition)
    (tabled : ∀ d, m.Declares d → ∀ type ∈ d.signature.types, type.Tabled) :
    ∃ u, m.unit = .ok u ∧ u.aliasNames.Pairwise (· < ·) ∧
      (∀ name, name ∈ u.aliasNames ↔ ∃ d, m.Declares d ∧ d.RefersTo name) ∧
      (∃ plain promises, u.functions = plain ++ promises ∧
        List.Forall₂ (u.Resolves false) m.functions plain ∧
        List.Forall₂ (u.Resolves true) m.asyncFunctions promises) ∧
      ∀ n : Definition, (∀ d, n.Declares d ↔ m.Declares d) →
        ∃ v, n.unit = .ok v ∧ v.aliases = u.aliases := by
  obtain ⟨plain, promises, done, first, second⟩ :=
    unit_of_tabled fun d mem => tabled d (mem_declarations.mp mem)
  have known : (StubUnit.mk m.name (m.typesToStub.map (⟨·, Descriptor.permissiveType⟩))
      (plain ++ promises)).aliasNames = m.typesToStub := by
    simp [StubUnit.aliasNames, Function.comp_def]
  refine ⟨_, done, ?_, ?_, ⟨plain, promises, rfl, ?_, ?_⟩, ?_⟩
  · rw [known]
    exact m.pairwise_typesToStub
  · intro name
    rw [known]
    exact mem_typesToStub
  · exact resolves_of_forall₂ known (fun d mem => .inl mem) first
  · exact resolves_of_forall₂ known (fun d mem => .inr (.inl mem)) second
  · intro n same
    obtain ⟨_, _, made, -, -⟩ := unit_of_tabled (m := n) fun d mem =>
      tabled d ((same d).mp (mem_declarations.mp mem))
    exact ⟨_, made, by rw [typesToStub_congr same]⟩

def sample : Definition :=
  { name := "M"
    functions := [⟨some "f",
      ⟨[⟨some (Wording.ofString "n"), .primitive "Int"⟩,
        ⟨none, .array (.array (.reference "Foo"))⟩], .void, none⟩⟩]
    properties := [⟨some "p", ⟨[], .reference "Bar", none⟩⟩]
    view := some { name := "V", props := [⟨some "q", ⟨[], .reference "Baz", none⟩⟩] } }

def sampleHooks : Definition :=
  { name := "N", onCreate := sample.properties ++ sample.functions ++ sample.properties }

theorem sample_closed :
    ∃ u v, sample.unit = .ok u ∧ u.aliasNames = [Wording.ofString "Bar", Wording.ofString "Foo"] ∧
      (∃ d, sample.Declares d ∧ d.RefersTo "Foo") ∧ (∀ d, sample.Declares d → ¬ d.RefersTo "Baz") ∧
      sampleHooks.unit = .ok v ∧ v.aliases = u.aliases := by
  have declares : ∀ d, sample.Declares d ↔ d ∈ sample.functions ∨ d ∈ sample.properties := by
    intro d
    simp [Declares, sample]
  have tabled : ∀ d, sample.Declares d → ∀ type ∈ d.signature.types, type.Tabled := by
    intro d declared
    rcases (declares d).mp declared with mem | mem
    all_goals
      rw [List.mem_singleton.mp mem]
      simp [Signature.types, Descriptor.Tabled, Descriptor.primitiveNames]
  obtain ⟨u, done, -, exact, -, others⟩ := unit_closed_under_names sample tabled
  obtain ⟨v, made, same⟩ := others sampleHooks (by simp [Declares, sample, sampleHooks, or_comm])
  have names : sample.unit.toOption.map StubUnit.aliasNames =
      some [Wording.ofString "Bar", Wording.ofString "Foo"] := by
    decide +kernel
  rw [done] at names
  have listed : u.aliasNames = [Wording.ofString "Bar", Wording.ofString "Foo"] :=
    Option.some.inj names
  refine ⟨u, v, done, listed, (exact "Foo").mp (by simp [listed]), ?_, made, same⟩
  intro d declared refers
  have absent : Wording.ofString "Baz" ∉ u.aliasNames := by simp [listed]
  exact absent ((exact "Baz").mpr ⟨d, declared, refers⟩)

end Definition

end ModuleStubs
