import Mathlib.Data.List.Forall2
import Mathlib.Tactic.SplitIfs
import ModuleStubs.Stub.Unit

/-! Descriptors that read off type names are settled: what is below their array layers
is in the tables of the stub writer. Stubs can be written for settled declarations, and
for all whose primitive names are in the table. -/

namespace ModuleStubs

namespace Descriptor

/-- Nothing below the array layers is a name of the wrong kind. -/
def Settled (d : Descriptor) : Prop :=
  match d.innermost with
  | .primitive name => name ∈ primitiveNames
  | .reference name => name ≠ [] ∧ name ∉ primitiveNames ∧ name ≠ unknownMarker
  | .unknown => True
  | .void => True
  | .array _ => False

theorem settled_array {d : Descriptor} : (array d).Settled ↔ d.Settled := Iff.rfl

theorem settled_unknown : unknown.Settled := trivial

theorem settled_void : void.Settled := trivial

theorem settled_plain (name : Wording) : (plain name).Settled := by
  unfold plain
  split_ifs with empty table marker
  · exact settled_void
  · exact table
  · exact settled_unknown
  · exact ⟨empty, table, marker⟩

theorem settled_ofWording (name : Wording) : (ofWording name).Settled := by
  fun_induction ofWording name with
  | case1 name inner found ih => exact settled_array.mpr ih
  | case2 name none => exact settled_plain _

theorem settled_ofName (name : Option Wording) : (ofName name).Settled := by
  cases name with
  | none => exact settled_void
  | some name => exact settled_ofWording name

def Tabled : Descriptor → Prop
  | .primitive name => name ∈ primitiveNames
  | .array element => element.Tabled
  | _ => True

theorem Settled.tabled {d : Descriptor} (settled : d.Settled) : d.Tabled := by
  induction d with
  | primitive name => exact settled
  | array element ih => exact ih settled
  | reference name => trivial
  | unknown => trivial
  | void => trivial

theorem keyword_of_mem {name : Wording} (table : name ∈ primitiveNames) :
    ∃ k, keyword name = .ok k := by
  obtain ⟨k, found⟩ := Option.isSome_iff_exists.mp ((keyword?_isSome_iff name).mpr table)
  exact ⟨k, by rw [keyword, found]⟩

theorem typescript_of_tabled {d : Descriptor} (tabled : d.Tabled) :
    ∃ text, d.typescript = .ok text := by
  induction d with
  | primitive name =>
    obtain ⟨k, found⟩ := keyword_of_mem tabled
    exact ⟨k.text, by rw [typescript, found]; rfl⟩
  | array element ih =>
    obtain ⟨text, written⟩ := ih tabled
    exact ⟨text ++ Wording.ofString "[]", by rw [typescript, written]; rfl⟩
  | reference name => exact ⟨name, rfl⟩
  | unknown => exact ⟨permissiveType, rfl⟩
  | void => exact ⟨"void", rfl⟩

theorem stubValue_of_tabled {d : Descriptor} (tabled : d.Tabled) :
    ∃ value, d.stubValue = .ok value := by
  cases d with
  | primitive name =>
    obtain ⟨k, found⟩ := keyword_of_mem tabled
    exact ⟨some k.literal, by rw [stubValue, found]; rfl⟩
  | array element => exact ⟨_, rfl⟩
  | reference name => exact ⟨_, rfl⟩
  | unknown => exact ⟨_, rfl⟩
  | void => exact ⟨_, rfl⟩

end Descriptor

def Parameter.Settled (p : Parameter) : Prop := p.type.Settled

structure Signature.Settled (s : Signature) : Prop where
  parameters : ∀ p ∈ s.parameters, p.Settled
  result : s.result.Settled

theorem Signature.Settled.tabled {s : Signature} (settled : s.Settled) :
    ∀ type ∈ s.types, type.Tabled := by
  intro type mem
  rcases List.mem_append.mp mem with mem | mem
  · obtain ⟨p, listed, rfl⟩ := List.mem_map.mp mem
    exact Descriptor.Settled.tabled (settled.parameters p listed)
  · rw [List.mem_singleton.mp mem]
    exact settled.result.tabled

theorem parameterStubs_of_tabled {ps : List Parameter} (tabled : ∀ p ∈ ps, p.type.Tabled)
    (position : Nat) : ∃ stubs, parameterStubs position ps = .ok stubs := by
  induction ps generalizing position with
  | nil => exact ⟨[], rfl⟩
  | cons p ps ih =>
    obtain ⟨first, rest⟩ := List.forall_mem_cons.mp tabled
    obtain ⟨type, written⟩ := Descriptor.typescript_of_tabled first
    obtain ⟨stubs, others⟩ := ih rest (position + 1)
    refine ⟨⟨p.stubName position, type⟩ :: stubs, ?_⟩
    rw [parameterStubs, written, others]
    rfl

theorem Declaration.stub_of_tabled {d : Declaration}
    (tabled : ∀ type ∈ d.signature.types, type.Tabled) (isAsync : Bool) :
    ∃ stub, d.stub isAsync = .ok stub := by
  have result : d.signature.result.Tabled := tabled _ (by simp [Signature.types])
  have types : ∀ p ∈ d.signature.parameters, p.type.Tabled := fun p mem =>
    tabled _ (List.mem_append_left _ (List.mem_map_of_mem mem))
  obtain ⟨returnType, typed⟩ := Descriptor.typescript_of_tabled result
  obtain ⟨parameters, listed⟩ := parameterStubs_of_tabled types 0
  obtain ⟨returnValue, valued⟩ := Descriptor.stubValue_of_tabled result
  refine ⟨⟨d.stubName, parameters, promised isAsync returnType,
    returnValue.map Wording.ofString, isAsync⟩, ?_⟩
  rw [Declaration.stub, typed, listed, valued]
  rfl

theorem mapM_of_forall {ε α β : Type} {f : α → Except ε β} {items : List α}
    (each : ∀ x ∈ items, ∃ y, f x = .ok y) :
    ∃ all, items.mapM f = .ok all ∧ List.Forall₂ (fun x y => f x = .ok y) items all := by
  induction items with
  | nil => exact ⟨[], rfl, .nil⟩
  | cons x items ih =>
    obtain ⟨⟨y, first⟩, rest⟩ := List.forall_mem_cons.mp each
    obtain ⟨all, others, pairs⟩ := ih rest
    refine ⟨y :: all, ?_, .cons first pairs⟩
    rw [List.mapM_cons, first, others]
    rfl

theorem Definition.unit_of_tabled {m : Definition}
    (tabled : ∀ d ∈ m.declarations, ∀ type ∈ d.signature.types, type.Tabled) :
    ∃ plain promises,
      m.unit = .ok ⟨m.name, m.typesToStub.map (⟨·, Descriptor.permissiveType⟩),
        plain ++ promises⟩ ∧
      List.Forall₂ (fun d f => Declaration.stub false d = .ok f) m.functions plain ∧
      List.Forall₂ (fun d f => Declaration.stub true d = .ok f) m.asyncFunctions promises := by
  have functions : ∀ d ∈ m.functions, ∃ stub, d.stub false = .ok stub := fun d mem =>
    Declaration.stub_of_tabled (tabled d (by simp [declarations, mem])) false
  have asyncFunctions : ∀ d ∈ m.asyncFunctions, ∃ stub, d.stub true = .ok stub := fun d mem =>
    Declaration.stub_of_tabled (tabled d (by simp [declarations, mem])) true
  obtain ⟨plain, first, plainPairs⟩ := mapM_of_forall functions
  obtain ⟨promises, second, promisePairs⟩ := mapM_of_forall asyncFunctions
  refine ⟨plain, promises, ?_, plainPairs, promisePairs⟩
  rw [Definition.unit, first, second]
  rfl

/-- No table of the stub writer lacks an entry for settled declarations. -/
theorem Definition.unit_of_settled {m : Definition}
    (settled : ∀ d ∈ m.declarations, d.signature.Settled) : ∃ unit, m.unit = .ok unit := by
  obtain ⟨plain, promises, done, -⟩ := unit_of_tabled fun d mem => (settled d mem).tabled
  exact ⟨_, done⟩

end ModuleStubs
