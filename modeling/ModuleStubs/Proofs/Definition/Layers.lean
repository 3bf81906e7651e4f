import Mathlib.Logic.Function.Iterate
import ModuleStubs.Proofs.Definition.Types
import ModuleStubs.Proofs.Stub.Settled

/-! Array layers of type names. A name is brackets around a core in one way only, and each
pair of brackets is one layer of its descriptor, of its spelling and of its TypeScript type.
So names are told apart by their descriptors, and spelling gives a name back unless there is
nothing inside its brackets. -/

namespace ModuleStubs.Descriptor

def enclosed (depth : Nat) (core : Wording) : Wording :=
  List.replicate depth (.char '[') ++ core ++ List.replicate depth (.char ']')

def Bare (text : Wording) : Prop :=
  ¬ (text.head? = some (.char '[') ∧ text.getLast? = some (.char ']'))

/-- A name as brackets around a core that has none around it. -/
@[ext] structure Layers (name : Wording) where
  depth : Nat
  core : Wording
  whole : name = enclosed depth core
  bare : Bare core

@[simp] theorem enclosed_zero (core : Wording) : enclosed 0 core = core := by
  simp [enclosed]

theorem enclosed_succ (depth : Nat) (core : Wording) :
    enclosed (depth + 1) core = .char '[' :: (enclosed depth core ++ [.char ']']) := by
  simp only [enclosed, List.replicate_succ' (n := depth) (a := CodePoint.char ']'),
    List.replicate_succ (n := depth) (a := CodePoint.char '['), List.cons_append, List.append_assoc]

theorem bracketed?_enclosed_succ (depth : Nat) (core : Wording) :
    bracketed? (enclosed (depth + 1) core) = some (enclosed depth core) := by
  rw [enclosed_succ]
  simp [bracketed?]

theorem bracketed?_eq_none_iff {text : Wording} : bracketed? text = none ↔ Bare text := by
  unfold Bare
  cases text with
  | nil => simp [bracketed?]
  | cons c rest =>
    by_cases opens : c = .char '['
    · subst opens
      cases rest with
      | nil => simp [bracketed?]
      | cons d rest => simp [bracketed?]
    · simp [bracketed?, opens]

theorem not_bare_enclosed_succ (depth : Nat) (core : Wording) :
    ¬ Bare (enclosed (depth + 1) core) := by
  rw [← bracketed?_eq_none_iff, bracketed?_enclosed_succ]
  exact Option.some_ne_none _

/-- Peeling one pair of brackets off both sides ends at both cores at once. -/
theorem enclosed_injective {m n : Nat} {core other : Wording} (bare : Bare core)
    (otherBare : Bare other) (same : enclosed m core = enclosed n other) :
    m = n ∧ core = other := by
  induction m generalizing n with
  | zero =>
    rw [enclosed_zero] at same
    cases n with
    | zero => exact ⟨rfl, same.trans (enclosed_zero other)⟩
    | succ n => exact absurd (same ▸ bare) (not_bare_enclosed_succ n other)
  | succ m ih =>
    cases n with
    | zero =>
      rw [enclosed_zero] at same
      exact absurd (same ▸ otherBare) (not_bare_enclosed_succ m core)
    | succ n =>
      have inner := congrArg bracketed? same
      simp only [bracketed?_enclosed_succ, Option.some_inj] at inner
      obtain ⟨depths, cores⟩ := ih inner
      exact ⟨congrArg (· + 1) depths, cores⟩

namespace Layers

variable {name : Wording}

def wrapped (l : Layers name) : Layers (enclosed 1 name) where
  depth := l.depth + 1
  core := l.core
  whole := by
    rw [enclosed_succ, enclosed_zero, enclosed_succ, ← l.whole]
  bare := l.bare

theorem unique (l other : Layers name) : other = l := by
  obtain ⟨depths, cores⟩ := enclosed_injective other.bare l.bare (other.whole.symm.trans l.whole)
  exact Layers.ext depths cores

end Layers

theorem exists_layers (name : Wording) : Nonempty (Layers name) := by
  fun_induction ofWording name with
  | case1 name inner found ih =>
    obtain ⟨l⟩ := ih
    have outer : name = enclosed 1 inner := by
      rw [eq_of_bracketed? found, enclosed_succ, enclosed_zero]
    rw [outer]
    exact ⟨l.wrapped⟩
  | case2 name none =>
    exact ⟨⟨0, name, (enclosed_zero _).symm, bracketed?_eq_none_iff.mp none⟩⟩

theorem ofName_enclosed (depth : Nat) (core : Wording) :
    ofName (some (enclosed depth core)) = array^[depth] (ofName (some core)) := by
  induction depth with
  | zero => rw [enclosed_zero, Function.iterate_zero_apply]
  | succ depth ih =>
    rw [Function.iterate_succ_apply', ← ih]
    exact ofWording_of_bracketed (bracketed?_enclosed_succ depth core)

theorem ofName_of_bare {core : Wording} (bare : Bare core) : ofName (some core) = plain core := by
  rw [ofName, ofWording_of_plain (bracketed?_eq_none_iff.mpr bare)]

theorem plain_ne_array (name : Wording) (element : Descriptor) : plain name ≠ .array element := by
  unfold plain
  split_ifs <;> exact nofun

theorem plain_eq_void_iff {name : Wording} : plain name = .void ↔ name = [] := by
  unfold plain
  split_ifs with empty table marker <;> simp [empty]

theorem plain_injective {name other : Wording} (same : plain name = plain other) :
    name = other := by
  by_cases empty : name = []
  · rw [empty, plain_eq_void_iff.mpr rfl] at same
    rw [empty, plain_eq_void_iff.mp same.symm]
  · have solid : plain name ≠ .void := fun void => empty (plain_eq_void_iff.mp void)
    have spelled := spelling_plain solid
    rw [same] at spelled solid
    rw [spelling_plain solid] at spelled
    exact (Option.some_inj.mp spelled).symm

theorem ofWording_injective {name other : Wording} (same : ofWording name = ofWording other) :
    name = other := by
  fun_induction ofWording name generalizing other with
  | case1 name inner found ih =>
    cases peel : bracketed? other with
    | none =>
      rw [ofWording_of_plain peel] at same
      exact absurd same.symm (plain_ne_array _ _)
    | some peeled =>
      rw [ofWording_of_bracketed peel] at same
      rw [eq_of_bracketed? found, eq_of_bracketed? peel, ih (array.inj same)]
  | case2 name none =>
    cases peel : bracketed? other with
    | none =>
      rw [ofWording_of_plain peel] at same
      exact plain_injective same
    | some peeled =>
      rw [ofWording_of_bracketed peel] at same
      exact absurd same (plain_ne_array _ _)

theorem typescript_iterate_array (depth : Nat) {d : Descriptor} {text : Wording}
    (written : d.typescript = .ok text) :
    (array^[depth] d).typescript = .ok ((· ++ Wording.ofString "[]")^[depth] text) := by
  induction depth with
  | zero => exact written
  | succ depth ih =>
    rw [Function.iterate_succ_apply', Function.iterate_succ_apply', typescript, ih]
    rfl

theorem spelling_iterate_array (depth : Nat) (d : Descriptor) :
    (array^[depth + 1] d).spelling = some (enclosed (depth + 1) (d.spelling.getD "None")) := by
  induction depth with
  | zero => rw [enclosed_succ, enclosed_zero]; rfl
  | succ depth ih =>
    rw [Function.iterate_succ_apply', spelling, ih, enclosed_succ (depth + 1), Option.getD_some,
      List.cons_append]

theorem ofName_injective {name other : Wording} (same : ofName (some other) = ofName (some name)) :
    other = name :=
  ofWording_injective same

theorem bare_empty : Bare [] := by
  unfold Bare
  decide

theorem enclosed_none_ne (depth : Nat) : enclosed depth "None" ≠ enclosed depth [] := by
  intro same
  have bare : Bare "None" := by
    unfold Bare
    decide
  exact absurd (enclosed_injective bare bare_empty same).2 (by decide)

namespace Layers

variable {name : Wording}

theorem ofName_eq (l : Layers name) :
    ofName (some name) = array^[l.depth] (ofName (some l.core)) := by
  obtain ⟨depth, core, rfl, bare⟩ := l
  exact ofName_enclosed depth core

theorem spelling_of_solid (l : Layers name) (solid : l.core ≠ []) :
    (ofName (some name)).spelling = some name := by
  obtain ⟨depth, core, rfl, bare⟩ := l
  have named : (plain core).spelling = some core :=
    spelling_plain fun void => solid (plain_eq_void_iff.mp void)
  rw [ofName_enclosed, ofName_of_bare bare]
  cases depth with
  | zero => rw [Function.iterate_zero_apply, enclosed_zero, named]
  | succ depth => rw [spelling_iterate_array, named, Option.getD_some]

theorem depth_of_empty (l : Layers name) (named : name ≠ []) (empty : l.core = []) :
    1 ≤ l.depth := by
  refine Nat.one_le_iff_ne_zero.mpr fun zero => named ?_
  rw [l.whole, zero, enclosed_zero, empty]

theorem spelling_of_empty (l : Layers name) (named : name ≠ []) (empty : l.core = []) :
    (ofName (some name)).spelling = some (enclosed l.depth "None") := by
  have deep := l.depth_of_empty named empty
  have layers := l.ofName_eq
  rw [empty, ofName_of_bare bare_empty, plain_eq_void_iff.mpr rfl] at layers
  rw [layers, ← Nat.sub_add_cancel deep, spelling_iterate_array]
  rfl

theorem ofName_none_ne (l : Layers name) (empty : l.core = []) :
    ofName (some (enclosed l.depth "None")) ≠ ofName (some name) := by
  intro same
  have texts := (ofName_injective same).trans l.whole
  rw [empty] at texts
  exact enclosed_none_ne l.depth texts

end Layers

/-- There is one way to see a name as brackets around a core that has none around it. Its
descriptor is that of the core, which is no array, inside one array layer for each pair, and
its TypeScript type is that of the core with `[]` behind it for each pair. Its spelling is the
name itself exactly when the core is not empty; otherwise it has `None` in place of the core
and is read as another descriptor. So no other name has the same descriptor, and the spelling
is read as the same descriptor exactly when the core is not empty. -/
theorem ofName_keeps_layers (name : Wording) (named : name ≠ []) :
    ∃ l : Layers name, (∀ other : Layers name, other = l) ∧
      (∀ element, ofName (some l.core) ≠ .array element) ∧
      ofName (some name) = array^[l.depth] (ofName (some l.core)) ∧
      (∃ text, (ofName (some l.core)).typescript = .ok text ∧
        (ofName (some name)).typescript = .ok ((· ++ Wording.ofString "[]")^[l.depth] text)) ∧
      ((ofName (some name)).spelling = some name ↔ l.core ≠ []) ∧
      (l.core = [] → 1 ≤ l.depth ∧
        (ofName (some name)).spelling = some (enclosed l.depth "None") ∧
        ofName (some (enclosed l.depth "None")) ≠ ofName (some name)) ∧
      (∀ other, ofName (some other) = ofName (some name) → other = name) ∧
      (ofName (ofName (some name)).spelling = ofName (some name) ↔ l.core ≠ []) := by
  obtain ⟨l⟩ := exists_layers name
  obtain ⟨text, written⟩ := typescript_of_tabled (settled_ofName (some l.core)).tabled
  have written_name : (ofName (some name)).typescript =
      .ok ((· ++ Wording.ofString "[]")^[l.depth] text) := by
    rw [l.ofName_eq]
    exact typescript_iterate_array l.depth written
  refine ⟨l, l.unique, ?_, l.ofName_eq, ⟨text, written, written_name⟩,
    ⟨?_, l.spelling_of_solid⟩, ?_, fun other => ofName_injective, ?_, ?_⟩
  · intro element
    rw [ofName_of_bare l.bare]
    exact plain_ne_array l.core element
  · intro spelled empty
    rw [l.spelling_of_empty named empty, Option.some_inj] at spelled
    exact l.ofName_none_ne empty (congrArg (fun text => ofName (some text)) spelled)
  · intro empty
    exact ⟨l.depth_of_empty named empty, l.spelling_of_empty named empty, l.ofName_none_ne empty⟩
  · intro again empty
    rw [l.spelling_of_empty named empty] at again
    exact l.ofName_none_ne empty again
  · intro solid
    rw [l.spelling_of_solid solid]

def emptyPairs : Layers "[[]]" := ⟨2, [], by decide, bare_empty⟩

theorem empty_brackets_respelled :
    Wording.ofString "[[]]" ≠ [] ∧ (∀ other : Layers "[[]]", other = emptyPairs) ∧
      (ofName (some (Wording.ofString "[[]]"))).spelling = some (Wording.ofString "[[None]]") ∧
      (ofName (some (Wording.ofString "[[]]"))).typescript = .ok (Wording.ofString "void[][]") := by
  have named : Wording.ofString "[[]]" ≠ [] := by decide
  obtain ⟨l, unique, -, -, ⟨text, written, typed⟩, -, respelled, -, -⟩ :=
    ofName_keeps_layers "[[]]" named
  have known : emptyPairs = l := unique emptyPairs
  subst known
  have void : (ofName (some emptyPairs.core)).typescript = .ok (Wording.ofString "void") := by
    rw [ofName_of_bare emptyPairs.bare]
    rfl
  rw [written, Except.ok.injEq] at void
  refine ⟨named, unique, (respelled rfl).2.1, ?_⟩
  rw [typed, void]
  rfl

end ModuleStubs.Descriptor
