import Mathlib.Data.List.Nodup
import ModuleStubs.Proofs.Definition.Types
import ModuleStubs.Proofs.Disk.Growth
import ModuleStubs.Proofs.Stub.Settled

/-! Names of stub parameters. A parameter keeps its own name, and one without a name is called
after its position. Only a name that looks like one of these can clash with it. -/

namespace ModuleStubs

namespace Parameter

def ownName? (p : Parameter) : Option Wording := p.name.filter (· ≠ [])

def positionName (position : Nat) : Wording := Wording.ofString ("arg" ++ toString position)

/-- The other parameter's own name is what this one, without a name, is called. -/
structure LosesName (position : Nat) (p other : Parameter) : Prop where
  nameless : p.ownName? = none
  taken : other.ownName? = some (positionName position)

theorem positionName_injective {i j : Nat} (same : positionName i = positionName j) : i = j := by
  have digits := congrArg String.toList
    ((String.append_right_inj "arg").mp (Wording.ofString_inj.mp same))
  rw [Nat.toString_eq_repr, Nat.toString_eq_repr, Nat.toList_repr, Nat.toList_repr] at digits
  rw [← Nat.ofDigitChars_ten_toDigits (n := i), digits, Nat.ofDigitChars_ten_toDigits]

theorem positionName_ne_nil (position : Nat) : positionName position ≠ [] := by
  simp [positionName, Wording.ofString]

theorem ne_nil_of_ownName? {p : Parameter} {name : Wording} (own : p.ownName? = some name) :
    name ≠ [] := by
  simpa using (Option.filter_eq_some_iff.mp own).2

theorem stubName_of_some {p : Parameter} {name : Wording} (own : p.ownName? = some name)
    (position : Nat) : p.stubName position = name := by
  obtain ⟨given, _⟩ := Option.filter_eq_some_iff.mp own
  rw [stubName, given]
  exact if_neg (ne_nil_of_ownName? own)

theorem stubName_of_none {p : Parameter} (nameless : p.ownName? = none) (position : Nat) :
    p.stubName position = positionName position := by
  unfold stubName
  cases given : p.name with
  | none => rfl
  | some name =>
    have empty : name = [] := by simpa [ownName?, given] using nameless
    exact if_pos empty

theorem stubName_eq (position : Nat) (p : Parameter) :
    p.stubName position = p.ownName?.getD (positionName position) := by
  cases own : p.ownName? with
  | none => exact stubName_of_none own position
  | some name => exact stubName_of_some own position

theorem stubName_ne_nil (position : Nat) (p : Parameter) : p.stubName position ≠ [] := by
  cases own : p.ownName? with
  | none =>
    rw [stubName_of_none own]
    exact positionName_ne_nil position
  | some name =>
    rw [stubName_of_some own]
    exact ne_nil_of_ownName? own

/-- Two parameters differ in name unless they bring the same name along or one of them loses its
name to the other. -/
theorem stubName_ne {i j : Nat} {p q : Parameter} (apart : i ≠ j)
    (own : ∀ a, p.ownName? = some a → ∀ b, q.ownName? = some b → a ≠ b)
    (first : ¬ LosesName i p q) (second : ¬ LosesName j q p) : p.stubName i ≠ q.stubName j := by
  cases named : p.ownName? with
  | none =>
    rw [stubName_of_none named]
    cases other : q.ownName? with
    | none =>
      rw [stubName_of_none other]
      exact fun same => apart (positionName_injective same)
    | some b =>
      rw [stubName_of_some other]
      exact fun same => first ⟨named, other.trans (congrArg some same.symm)⟩
  | some a =>
    rw [stubName_of_some named]
    cases other : q.ownName? with
    | none =>
      rw [stubName_of_none other]
      exact fun same => second ⟨other, named.trans (congrArg some same)⟩
    | some b =>
      rw [stubName_of_some other]
      exact own a named b other

end Parameter

open Parameter (LosesName positionName)

def HasClash (ps : List Parameter) : Prop := ∃ i p q, ps[i]? = some p ∧ q ∈ ps ∧ LosesName i p q

/-- Distinct names stay distinct, and those of positions come between them only in a clash. -/
theorem nodup_stubNames_iff (ps : List Parameter) :
    (ps.mapIdx fun i p => p.stubName i).Nodup ↔
      (ps.filterMap Parameter.ownName?).Nodup ∧ ¬ HasClash ps := by
  constructor
  · intro distinct
    have same_place : ∀ {i j : Nat} (hi : i < ps.length) (hj : j < ps.length),
        ps[i].stubName i = ps[j].stubName j → i = j := by
      intro i j hi hj same
      have injective := List.pairwise_iff_getElem.mp distinct
      by_contra apart
      rcases Nat.lt_or_gt_of_ne apart with before | after
      · exact injective i j (by simpa using hi) (by simpa using hj) before (by simpa using same)
      · exact injective j i (by simpa using hj) (by simpa using hi) after (by simpa using same.symm)
    constructor
    · refine List.pairwise_filterMap.mpr (List.pairwise_iff_getElem.mpr ?_)
      intro i j hi hj before a own b other same
      refine Nat.ne_of_lt before (same_place hi hj ?_)
      rw [Parameter.stubName_of_some own, Parameter.stubName_of_some other, same]
    · rintro ⟨i, p, q, found, mem, lost⟩
      obtain ⟨hi, rfl⟩ := List.getElem?_eq_some_iff.mp found
      obtain ⟨j, hj, rfl⟩ := List.getElem_of_mem mem
      have place : i = j := by
        refine same_place hi hj ?_
        rw [Parameter.stubName_of_none lost.nameless, Parameter.stubName_of_some lost.taken]
      subst place
      exact absurd (lost.nameless.symm.trans lost.taken) nofun
  · rintro ⟨own, harmless⟩
    have apart := List.pairwise_iff_getElem.mp (List.pairwise_filterMap.mp own)
    refine List.pairwise_iff_getElem.mpr ?_
    intro i j hi hj before
    rw [List.length_mapIdx] at hi hj
    rw [List.getElem_mapIdx, List.getElem_mapIdx]
    refine Parameter.stubName_ne (Nat.ne_of_lt before) (apart i j hi hj before) ?_ ?_
    · exact fun lost => harmless
        ⟨i, _, _, List.getElem?_eq_getElem hi, List.getElem_mem hj, lost⟩
    · exact fun lost => harmless
        ⟨j, _, _, List.getElem?_eq_getElem hj, List.getElem_mem hi, lost⟩

theorem Descriptor.tabled_of_typescript {d : Descriptor} {text : Wording}
    (written : d.typescript = .ok text) : d.Tabled := by
  induction d generalizing text with
  | primitive name =>
    refine (keyword?_isSome_iff name).mp ?_
    cases found : keyword? name with
    | none => simp [typescript, keyword, found, Except.map] at written
    | some k => rfl
  | array element ih =>
    cases inner : element.typescript with
    | error why => simp [typescript, inner, Except.map] at written
    | ok text => exact ih inner
  | reference name => trivial
  | unknown => trivial
  | void => trivial

theorem names_of_parameterStubs {position : Nat} {ps : List Parameter}
    {stubs : List ParameterStub} (made : parameterStubs position ps = .ok stubs) :
    stubs.map (·.name) = ps.mapIdx fun i p => p.stubName (position + i) := by
  induction ps generalizing position stubs with
  | nil =>
    cases made
    rfl
  | cons p ps ih =>
    obtain ⟨type, written, made⟩ := of_bind_eq_ok made
    obtain ⟨rest, listed, made⟩ := of_bind_eq_ok made
    cases made
    rw [List.map_cons, ih listed, List.mapIdx_cons]
    simp only [Nat.add_zero, Nat.add_assoc, Nat.add_comm 1]

theorem parameters_of_stub {d : Declaration} {isAsync : Bool} {f : FunctionStub}
    (made : d.stub isAsync = .ok f) :
    parameterStubs 0 d.signature.parameters = .ok f.parameters := by
  obtain ⟨returnType, typed, made⟩ := of_bind_eq_ok made
  obtain ⟨parameters, listed, made⟩ := of_bind_eq_ok made
  obtain ⟨returnValue, valued, made⟩ := of_bind_eq_ok made
  cases made
  exact listed

theorem tabled_of_parameterStubs {position : Nat} {ps : List Parameter}
    {stubs : List ParameterStub} (made : parameterStubs position ps = .ok stubs) :
    ∀ p ∈ ps, p.type.Tabled := by
  induction ps generalizing position stubs with
  | nil => exact nofun
  | cons p ps ih =>
    obtain ⟨type, written, made⟩ := of_bind_eq_ok made
    obtain ⟨rest, listed, -⟩ := of_bind_eq_ok made
    exact List.forall_mem_cons.mpr ⟨Descriptor.tabled_of_typescript written, ih listed⟩

theorem exists_stub_iff (d : Declaration) (isAsync : Bool) :
    (∃ f, d.stub isAsync = .ok f) ↔ d.signature.Every Descriptor.Tabled := by
  refine ⟨?_, fun tabled => d.stub_of_tabled tabled isAsync⟩
  rintro ⟨f, made⟩
  obtain ⟨returnType, typed, -⟩ := of_bind_eq_ok made
  exact Signature.every_iff.mpr
    ⟨tabled_of_parameterStubs (parameters_of_stub made), Descriptor.tabled_of_typescript typed⟩

/-- A stub is made of a declaration exactly when the primitive names in its types have keywords.
Its parameters have names and stand in the order of the declaration, each under its own name or,
if it has none, under that of its position. These names are distinct exactly when the parameters'
own names are and none of them is that of the position of a parameter without a name. -/
theorem stub_parameters_distinct_iff (d : Declaration) (isAsync : Bool) :
    ((∃ f, d.stub isAsync = .ok f) ↔ d.signature.Every Descriptor.Tabled) ∧
    ∀ f, d.stub isAsync = .ok f →
      f.parameters.map (·.name) =
        d.signature.parameters.mapIdx (fun i p => p.ownName?.getD (positionName i)) ∧
      (∀ p ∈ f.parameters, p.name ≠ []) ∧
      ((f.parameters.map (·.name)).Nodup ↔
        (d.signature.parameters.filterMap Parameter.ownName?).Nodup ∧
          ¬ HasClash d.signature.parameters) := by
  refine ⟨exists_stub_iff d isAsync, fun f made => ?_⟩
  have names := names_of_parameterStubs (parameters_of_stub made)
  simp only [Nat.zero_add] at names
  refine ⟨?_, ?_, ?_⟩
  · rw [names]
    simp only [Parameter.stubName_eq]
  · intro p mem empty
    have listed : p.name ∈ f.parameters.map (·.name) := List.mem_map_of_mem mem
    rw [names, empty, List.mem_mapIdx] at listed
    obtain ⟨i, hi, same⟩ := listed
    exact Parameter.stubName_ne_nil i _ same
  · rw [names]
    exact nodup_stubNames_iff d.signature.parameters

def mixedNames : Declaration :=
  ⟨some "scale", ⟨[⟨none, .primitive "Double"⟩, ⟨some (Wording.ofString "by"), .primitive "Double"⟩,
    ⟨some [], .reference "Axis"⟩, ⟨some (Wording.ofString "arg1"), .unknown⟩], .void, none⟩⟩

theorem mixedNames_distinct :
    ∃ f, mixedNames.stub false = .ok f ∧
      f.parameters.map (·.name) = ["arg0", "by", "arg2", "arg1"].map Wording.ofString ∧
      (f.parameters.map (·.name)).Nodup ∧ ¬ HasClash mixedNames.signature.parameters := by
  obtain ⟨made, stubs⟩ := stub_parameters_distinct_iff mixedNames false
  have tabled : mixedNames.signature.Every Descriptor.Tabled := by
    simp [Signature.every_iff, mixedNames, Descriptor.Tabled, Descriptor.primitiveNames]
  obtain ⟨f, made⟩ := made.mpr tabled
  obtain ⟨names, -, distinct⟩ := stubs f made
  have listed :
      f.parameters.map (·.name) = ["arg0", "by", "arg2", "arg1"].map Wording.ofString := by
    rw [names]
    decide +kernel
  have nodup : (f.parameters.map (·.name)).Nodup := by
    rw [listed]
    decide
  exact ⟨f, made, listed, nodup, (distinct.mp nodup).2⟩

def namesake : Declaration :=
  ⟨some "scale", ⟨[⟨none, .primitive "Int"⟩, ⟨some (Wording.ofString "arg0"), .primitive "Int"⟩],
    .void, none⟩⟩

theorem position_name_taken :
    (namesake.signature.parameters.filterMap Parameter.ownName?).Nodup ∧
      ∃ f, namesake.stub false = .ok f ∧
      f.parameters.map (·.name) = ["arg0", "arg0"].map Wording.ofString ∧
        ¬ (f.parameters.map (·.name)).Nodup := by
  refine ⟨by decide, ?_⟩
  refine ⟨⟨"scale", [⟨"arg0", "number"⟩, ⟨"arg0", "number"⟩], "void", none, false⟩, rfl, rfl, ?_⟩
  decide

end ModuleStubs
