import Mathlib.Data.List.Basic
import Mathlib.Tactic.SplitIfs
import ModuleStubs.Stub.Unit

/-! Types of signatures and definitions. A type that was read from a name is read again from
its spelling, unless it is an array of nothing. -/

namespace ModuleStubs

namespace Descriptor

def IsRead (d : Descriptor) : Prop := ∃ name, ofName name = d

def Hollow (d : Descriptor) : Prop := d ≠ .void ∧ d.innermost = .void

theorem isRead_ofName (name : Option Wording) : (ofName name).IsRead := ⟨name, rfl⟩

theorem eq_of_bracketed? {name inner : Wording} (h : bracketed? name = some inner) :
    name = .char '[' :: (inner ++ [.char ']']) := by
  unfold bracketed? at h
  split at h
  · next rest =>
    split_ifs at h with last
    cases h
    rw [List.dropLast_append_getLast? _ last]
  · cases h

theorem spelling_plain {name : Wording} (solid : plain name ≠ .void) :
    (plain name).spelling = some name := by
  unfold plain at solid ⊢
  split_ifs at solid ⊢ with empty table marker
  · exact absurd rfl solid
  · rfl
  · rw [marker]
    rfl
  · rfl

theorem innermost_plain (name : Wording) : (plain name).innermost = plain name := by
  unfold plain
  split_ifs <;> rfl

/-- Each array layer is spelled with the brackets that it was read from. -/
theorem spelling_ofWording {name : Wording} (solid : (ofWording name).innermost ≠ .void) :
    (ofWording name).spelling = some name := by
  fun_induction ofWording name with
  | case1 name inner found ih =>
    rw [spelling, ih solid, Option.getD_some, eq_of_bracketed? found, List.cons_append]
  | case2 name plain =>
    rw [innermost_plain] at solid
    exact spelling_plain solid

theorem ofName_spelling {d : Descriptor} (read : d.IsRead) (solid : ¬ d.Hollow) :
    ofName d.spelling = d := by
  obtain ⟨name, rfl⟩ := read
  by_cases nothing : ofName name = .void
  · rw [nothing]
    rfl
  · cases name with
    | none => exact absurd rfl nothing
    | some name =>
      have spelled := spelling_ofWording fun hollow => solid ⟨nothing, hollow⟩
      rw [ofName, spelled, ofName]

end Descriptor

def Signature.Every (P : Descriptor → Prop) (s : Signature) : Prop := ∀ type ∈ s.types, P type

theorem Signature.every_iff {P : Descriptor → Prop} {s : Signature} :
    s.Every P ↔ (∀ p ∈ s.parameters, P p.type) ∧ P s.result := by
  simp [Every, types, or_imp, forall_and]

/-- A property of every signature in a definition and in its view. -/
inductive Definition.Throughout (S : Signature → Prop) : Definition → Prop
  | intro {m : Definition} (own : ∀ d ∈ m.declarations, S d.signature)
    (view : ∀ v, m.view = some v → Throughout S v) : Throughout S m

theorem Definition.Throughout.combine {S T R : Signature → Prop}
    (both : ∀ s, S s → T s → R s) {m : Definition} (first : m.Throughout S)
    (second : m.Throughout T) : m.Throughout R := by
  induction first with
  | intro own view ih =>
    cases second with
    | intro own' view' =>
      exact .intro (fun d mem => both _ (own d mem) (own' d mem))
        fun v has => ih v has (view' v has)

def Definition.EveryType (P : Descriptor → Prop) (m : Definition) : Prop :=
  m.Throughout (Signature.Every P)

end ModuleStubs
