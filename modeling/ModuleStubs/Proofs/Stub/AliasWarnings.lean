import ModuleStubs.Proofs.Extraction.Origin
import ModuleStubs.Proofs.Extraction.WellFormed
import ModuleStubs.Proofs.Stub.Aliases
import ModuleStubs.Proofs.Stub.Handing

/-! Warnings about aliases. Every name that a module refers to gets one, in the order of the
aliases, unless it is an identifier; but a line feed behind an identifier is not looked at. -/

namespace ModuleStubs

def BeginsIdentifier (c : Char) : Prop :=
  ('A' ≤ c ∧ c ≤ 'Z') ∨ ('a' ≤ c ∧ c ≤ 'z') ∨ c = '_' ∨ c = '$'

def ContinuesIdentifier (c : Char) : Prop := BeginsIdentifier c ∨ ('0' ≤ c ∧ c ≤ '9')

inductive SpellsIdentifier : Wording → Prop
  | intro {c : Char} {rest : Wording} (first : BeginsIdentifier c)
      (others : ∀ p ∈ rest, ∃ d : Char, p = .char d ∧ ContinuesIdentifier d) :
      SpellsIdentifier (.char c :: rest)

theorem isIdentifierStart_iff {c : Char} : isIdentifierStart c = true ↔ BeginsIdentifier c := by
  have upper : c.isUpper = decide ('A' ≤ c ∧ c ≤ 'Z') := rfl
  have lower : c.isLower = (decide ('a' ≤ c) && decide (c ≤ 'z')) := rfl
  have letter : c.isAlpha = (c.isUpper || c.isLower) := rfl
  simp only [isIdentifierStart, BeginsIdentifier, letter, upper, lower, Bool.or_eq_true,
    decide_eq_true_eq, Bool.and_eq_true, or_assoc]

theorem isIdentifierPart_iff {c : Char} : isIdentifierPart c = true ↔ ContinuesIdentifier c := by
  simp only [isIdentifierPart, ContinuesIdentifier, Bool.or_eq_true, isIdentifierStart_iff,
    Text.isDigit, Bool.and_eq_true, decide_eq_true_eq]

theorem isPart_iff {p : CodePoint} :
    p.isPart = true ↔ ∃ d : Char, p = .char d ∧ ContinuesIdentifier d := by
  cases p with
  | half n => exact ⟨nofun, nofun⟩
  | char c =>
    rw [CodePoint.isPart, isIdentifierPart_iff]
    exact ⟨fun part => ⟨c, rfl, part⟩, fun ⟨_, same, part⟩ => CodePoint.char.inj same ▸ part⟩

theorem isIdentifier_iff {cs : Wording} : isIdentifier cs = true ↔ SpellsIdentifier cs := by
  cases cs with
  | nil => exact ⟨nofun, nofun⟩
  | cons p rest =>
    rw [isIdentifier, Bool.and_eq_true, List.all_eq_true]
    cases p with
    | half n => exact ⟨nofun, nofun⟩
    | char c =>
      rw [CodePoint.isStart, isIdentifierStart_iff]
      constructor
      · rintro ⟨first, others⟩
        exact .intro first fun p mem => isPart_iff.mp (others p mem)
      · rintro ⟨first, others⟩
        exact ⟨first, fun p mem => isPart_iff.mpr (others p mem)⟩

theorem not_spellsIdentifier_line (cs : Wording) : ¬ SpellsIdentifier (cs ++ [.char '\n']) := by
  intro spelled
  rw [← isIdentifier_iff] at spelled
  cases cs with
  | nil => exact absurd spelled (by decide)
  | cons c rest =>
    rw [List.cons_append, isIdentifier, Bool.and_eq_true, List.all_append, Bool.and_eq_true]
      at spelled
    exact absurd spelled.2.2 (by decide)

theorem passesAsIdentifier_iff {name : Wording} : passesAsIdentifier name = true ↔
    SpellsIdentifier name ∨
      ∃ stem : Wording, name = stem ++ [.char '\n'] ∧ SpellsIdentifier stem := by
  rw [passesAsIdentifier, Bool.or_eq_true, Bool.and_eq_true, decide_eq_true_eq, isIdentifier_iff,
    isIdentifier_iff]
  refine or_congr_right ⟨?_, ?_⟩
  · rintro ⟨last, spelled⟩
    exact ⟨name.dropLast, (List.dropLast_append_getLast? _ last).symm, spelled⟩
  · rintro ⟨stem, rfl, spelled⟩
    rw [List.dropLast_concat]
    exact ⟨List.getLast?_concat, spelled⟩

structure Lists (P : Wording → Prop) (names : List Wording) : Prop where
  increasing : names.Pairwise (· < ·)
  mem_iff : ∀ name, name ∈ names ↔ P name

theorem Lists.unique {P : Wording → Prop} {names others : List Wording} (first : Lists P names)
    (second : Lists P others) : names = others :=
  first.increasing.eq_of_mem_iff second.increasing fun name =>
    (first.mem_iff name).trans (second.mem_iff name).symm

namespace Definition

variable {m : Definition}

def Mentions (m : Definition) (name : Wording) : Prop := ∃ d, m.Declares d ∧ d.RefersTo name

def oddNames (m : Definition) : List Wording :=
  m.typesToStub.filter fun name => !passesAsIdentifier name

theorem warnings_eq (m : Definition) :
    m.warnings = m.oddNames.map fun name => ⟨.warning, m.aliasWarning name, none⟩ := by
  rw [warnings, aliasWarnings, List.map_map]
  rfl

theorem lists_oddNames (m : Definition) :
    Lists (fun name => m.Mentions name ∧ ¬ SpellsIdentifier name ∧
      ¬ ∃ stem : Wording, name = stem ++ [.char '\n'] ∧ SpellsIdentifier stem) m.oddNames := by
  refine ⟨m.pairwise_typesToStub.filter _, fun name => ?_⟩
  rw [oddNames, List.mem_filter, mem_typesToStub, Bool.not_eq_true', ← Bool.not_eq_true,
    passesAsIdentifier_iff, not_or]
  rfl

/-- Stubs are prepared for every extracted module, and nothing is recorded but warnings: one for
each name that the module refers to and that is no identifier and no identifier with a line feed
behind it, by code point. So all names that are no identifiers are warned about exactly when the
module refers to no identifier with a line feed behind it. -/
theorem alias_warnings_exact_iff (m : Definition) (extracted : m.Extracted) (s : Session) :
    ∃ unit t names, (StubOutput.prepare m).outcome s = (.ok unit, t) ∧
      s.Follows t ⟨[], names.map fun name => ⟨.warning, m.aliasWarning name, none⟩⟩ ∧
      Lists (fun name => m.Mentions name ∧ ¬ SpellsIdentifier name ∧
        ¬ ∃ stem : Wording, name = stem ++ [.char '\n'] ∧ SpellsIdentifier stem) names ∧
      (Lists (fun name => m.Mentions name ∧ ¬ SpellsIdentifier name) names ↔
        ∀ stem : Wording, SpellsIdentifier stem → ¬ m.Mentions (stem ++ [.char '\n'])) := by
  obtain ⟨unit, t, -, prepared⟩ := StubOutput.prepare_of_settled extracted.settled s
  have noted := (StubOutput.prepare_eq_ok prepared).2
  rw [warnings_eq] at noted
  have odd := m.lists_oddNames
  refine ⟨unit, t, m.oddNames, prepared, noted, odd, ?_⟩
  constructor
  · intro complete stem spelled mentioned
    have listed := (complete.mem_iff _).mpr ⟨mentioned, not_spellsIdentifier_line stem⟩
    exact ((odd.mem_iff _).mp listed).2.2 ⟨stem, rfl, spelled⟩
  · intro harmless
    refine ⟨odd.increasing, fun name => (odd.mem_iff name).trans ?_⟩
    constructor
    · rintro ⟨mentioned, misspelled, -⟩
      exact ⟨mentioned, misspelled⟩
    · rintro ⟨mentioned, misspelled⟩
      refine ⟨mentioned, misspelled, ?_⟩
      rintro ⟨stem, rfl, spelled⟩
      exact harmless stem spelled mentioned

def closureRoot (typenames : List Wording) : List Node :=
  [⟨none, none, some "Function", none, none,
    [⟨none, none, none, some 0, some 1, []⟩,
      ⟨some "source.lang.swift.expr.closure", none, none, none, none,
        typenames.map fun typename =>
          ⟨some "source.lang.swift.decl.var.parameter", some typename, none, none, none, []⟩⟩]⟩]

def closureExtractor : Extractor :=
  ⟨{ tool := fun _ _ => .missing, settings := {} }, ⟨⟨.relative, ["M.swift"]⟩, "f"⟩⟩

theorem exists_of_closureRoot {typenames names odd : List Wording}
    (shown : ((closureExtractor.surface (closureRoot typenames) none).outcome {}).1.toOption.map
      (fun m => (m.name, m.typesToStub, m.oddNames)) = some ("M", names, odd)) :
    ∃ m : Definition, m.Extracted ∧ m.name = "M" ∧ m.typesToStub = names ∧ m.oddNames = odd := by
  obtain ⟨m, extracted, -, data⟩ := exists_of_surface (fun _ => rfl) rfl shown
  simp only [Prod.mk.injEq] at data
  exact ⟨m, extracted, data⟩

theorem two_names_warned : ∃ m unit t, m.Extracted ∧
    m.typesToStub = ["(Int) -> Void", "Foo", "String?"].map Wording.ofString ∧
    (StubOutput.prepare m).outcome {} = (.ok unit, t) ∧
    t.diagnostics.map (·.message.shown) =
      ["M: type '(Int) -> Void' is not a TypeScript identifier; the generated alias will not compile",
        "M: type 'String?' is not a TypeScript identifier; the generated alias will not compile"] ∧
    Lists (fun name => m.Mentions name ∧ ¬ SpellsIdentifier name)
      (["(Int) -> Void", "String?"].map Wording.ofString) := by
  obtain ⟨m, extracted, name, names, odd⟩ := @exists_of_closureRoot
    (["[String?]", "Foo", "Int", "(Int) -> Void", "String?"].map Wording.ofString)
    (["(Int) -> Void", "Foo", "String?"].map Wording.ofString)
    (["(Int) -> Void", "String?"].map Wording.ofString) (by decide +kernel)
  obtain ⟨unit, t, warned, prepared, noted, lists, complete⟩ :=
    alias_warnings_exact_iff m extracted {}
  have same := (lists.unique m.lists_oddNames).trans odd
  subst same
  have harmless : ∀ stem : Wording, SpellsIdentifier stem →
      ¬ m.Mentions (stem ++ [.char '\n']) := by
    intro stem spelled mentioned
    have listed := mem_typesToStub.mpr mentioned
    have ends : ∀ listed ∈ m.typesToStub, listed.getLast? ≠ some (.char '\n') := by
      rw [names]
      decide
    exact ends _ listed List.getLast?_concat
  refine ⟨m, unit, t, extracted, names, prepared, ?_, complete.mpr harmless⟩
  rw [noted.diagnostics, List.map_append, List.map_map]
  simp only [Function.comp_def, aliasWarning, name]
  decide

/-- A name with a line feed behind it gets an alias that cannot compile, but no warning. -/
theorem line_feed_unseen : ∃ m unit t, m.Extracted ∧ m.Mentions "Foo\n" ∧
    ¬ SpellsIdentifier "Foo\n" ∧
    (StubOutput.prepare m).outcome {} = (.ok unit, t) ∧ t.diagnostics = [] := by
  obtain ⟨m, extracted, -, names, odd⟩ :=
    @exists_of_closureRoot [Wording.ofString "Foo\n"] [Wording.ofString "Foo\n"] []
      (by decide +kernel)
  obtain ⟨unit, t, -, prepared⟩ := StubOutput.prepare_of_settled extracted.settled {}
  have noted := (StubOutput.prepare_eq_ok prepared).2
  rw [warnings_eq, odd] at noted
  refine ⟨m, unit, t, extracted, ?_, not_spellsIdentifier_line "Foo", prepared,
    noted.diagnostics⟩
  exact mem_typesToStub.mp (by rw [names]; exact List.mem_singleton_self _)

end Definition

end ModuleStubs
