import ModuleStubs.Discovery.Exclusion
import ModuleStubs.Proofs.Path.RoundTrip

/-! Patterns for directories. Such a pattern is looked for as a text between slashes, which comes
to the same as looking for its names among the directories of a path. -/

namespace ModuleStubs

namespace Text

theorem after?_isSome_iff {word cs : List Char} : (after? word cs).isSome = true ↔ word <+: cs := by
  constructor
  · intro found
    obtain ⟨rest, given⟩ := Option.isSome_iff_exists.mp found
    exact ⟨rest, (eq_append_of_after? given).symm⟩
  · rintro ⟨rest, rfl⟩
    rw [after?_append]
    rfl

theorem holds_iff {word cs : List Char} : holds word cs = true ↔ word <:+: cs := by
  induction cs with
  | nil =>
    rw [holds, cutAt?, Option.isSome_map, after?_isSome_iff, List.prefix_nil, List.infix_nil]
  | cons c cs ih =>
    rw [List.infix_cons_iff, ← ih, ← after?_isSome_iff, holds, cutAt?]
    cases after? word (c :: cs) with
    | some rest => simp
    | none => simp [holds]

theorem splitOn_append_sep (sep : Char) (front rest : List Char) :
    splitOn sep (front ++ sep :: rest) = splitOn sep front ++ splitOn sep rest := by
  induction front with
  | nil => rw [List.nil_append, splitOn.eq_2, if_pos rfl, splitOn, List.singleton_append]
  | cons c front ih =>
    rw [List.cons_append, splitOn, splitOn, ih]
    split_ifs with here
    · rfl
    · cases found : splitOn sep front with
      | nil => exact absurd found (splitOn_ne_nil sep front)
      | cons piece pieces => rfl

def slashed (names : List String) : List Char := names.flatMap fun name => '/' :: name.toList

theorem slashed_cons (name : String) (names : List String) :
    slashed (name :: names) = '/' :: (name.toList ++ slashed names) := rfl

theorem slashed_append (names others : List String) :
    slashed (names ++ others) = slashed names ++ slashed others := List.flatMap_append

theorem slash_cons_join {names : List String} (filled : names ≠ []) :
    '/' :: (join "/" names).toList = slashed names := by
  induction names with
  | nil => exact absurd rfl filled
  | cons name names ih =>
    cases names with
    | nil => rw [join, String.intercalate_singleton, slashed_cons, slashed, List.flatMap_nil,
        List.append_nil]
    | cons second names =>
      have joined :
          join "/" (name :: second :: names) = name ++ "/" ++ join "/" (second :: names) :=
        String.intercalate_cons_cons
      rw [joined, slashed_cons, ← ih (List.cons_ne_nil _ _)]
      simp

theorem slashed_splitOn (cs : List Char) :
    slashed ((splitOn '/' cs).map String.ofList) = '/' :: cs := by
  induction cs with
  | nil => rfl
  | cons c cs ih =>
    rw [splitOn]
    split_ifs with here
    · rw [List.map_cons, slashed_cons, ih, here]
      rfl
    · obtain ⟨piece, pieces, found⟩ := List.exists_cons_of_ne_nil (splitOn_ne_nil '/' cs)
      rw [found, List.map_cons, slashed_cons, String.toList_ofList] at ih
      rw [found]
      simp only [List.map_cons, slashed_cons, String.toList_ofList]
      rw [List.cons_append, (List.cons.inj ih).2]

theorem splitOn_append_slashed {names : List String} (clean : ∀ name ∈ names, '/' ∉ name.toList)
    (front : List Char) :
    splitOn '/' (front ++ slashed names) = splitOn '/' front ++ names.map String.toList := by
  induction names generalizing front with
  | nil => simp [slashed]
  | cons name names ih =>
    obtain ⟨first, rest⟩ := List.forall_mem_cons.mp clean
    calc splitOn '/' (front ++ slashed (name :: names))
        = splitOn '/' ((front ++ '/' :: name.toList) ++ slashed names) := by
          rw [slashed_cons, List.append_assoc, List.cons_append]
      _ = splitOn '/' (front ++ '/' :: name.toList) ++ names.map String.toList := ih rest _
      _ = splitOn '/' front ++ (name :: names).map String.toList := by
          rw [splitOn_append_sep, splitOn_of_notMem first, List.append_assoc]
          rfl

/-- Slashed names between slashes are names that follow one another before the last one. -/
theorem slashed_infix_iff {names parts : List String} (filled : names ≠ [])
    (clean : ∀ name ∈ names, '/' ∉ name.toList) (whole : ∀ part ∈ parts, '/' ∉ part.toList) :
    slashed names ++ ['/'] <:+: slashed parts ↔ names <:+: parts.dropLast := by
  constructor
  · rintro ⟨front, rest, same⟩
    have cut := congrArg (splitOn '/') same
    have later : front ++ (slashed names ++ ['/']) ++ rest =
        (front ++ slashed names) ++ '/' :: rest := by simp
    rw [later, splitOn_append_sep, splitOn_append_slashed clean, ← List.nil_append (slashed parts),
      splitOn_append_slashed whole] at cut
    -- The text before the first slash is empty, so it is the first piece of the front.
    obtain ⟨head, before, first⟩ := List.exists_cons_of_ne_nil (splitOn_ne_nil '/' front)
    rw [first, splitOn, List.cons_append, List.cons_append, List.cons_append,
      List.nil_append] at cut
    have parted := congrArg (List.map String.ofList) (List.cons.inj cut).2
    simp only [List.map_append, List.map_map, Function.comp_def, String.ofList_toList,
      List.map_id'] at parted
    have after : (splitOn '/' rest).map String.ofList ≠ [] :=
      fun none => splitOn_ne_nil '/' rest (List.map_eq_nil_iff.mp none)
    rw [← parted, List.dropLast_append_of_ne_nil after]
    exact ⟨before.map String.ofList, _, rfl⟩
  · rintro ⟨before, after, same⟩
    have some : parts ≠ [] := by
      rintro rfl
      rw [List.dropLast_nil, List.append_eq_nil_iff, List.append_eq_nil_iff] at same
      exact filled same.1.2
    rw [← List.dropLast_concat_getLast some, ← same, slashed_append, slashed_append, slashed_append]
    have last : ∃ more, slashed after ++ slashed [parts.getLast some] = '/' :: more := by
      cases after with
      | nil => exact ⟨_, rfl⟩
      | cons name after => exact ⟨_, rfl⟩
    obtain ⟨more, next⟩ := last
    refine ⟨slashed before, more, ?_⟩
    rw [List.append_assoc (slashed before ++ slashed names), next]
    simp

end Text

def directoryPattern (names : List String) : String := Text.join "/" names ++ "/"

theorem isDirectoryPattern_directoryPattern (names : List String) :
    isDirectoryPattern (directoryPattern names) = true := by
  simp [isDirectoryPattern, directoryPattern]

/-- A text that ends with a slash names directories, though perhaps with an empty name. -/
theorem exists_names_of_isDirectoryPattern {pattern : String}
    (ends : isDirectoryPattern pattern = true) :
    ∃ names : List String, names ≠ [] ∧ (∀ name ∈ names, '/' ∉ name.toList) ∧
      pattern = directoryPattern names := by
  obtain ⟨stem, split⟩ := List.getLast?_eq_some_iff.mp (of_decide_eq_true ends)
  have filled : (Text.splitOn '/' stem).map String.ofList ≠ [] :=
    fun none => Text.splitOn_ne_nil '/' stem (List.map_eq_nil_iff.mp none)
  refine ⟨_, filled, ?_, ?_⟩
  · intro name mem
    obtain ⟨piece, cut, rfl⟩ := List.mem_map.mp mem
    rw [String.toList_ofList]
    exact Text.notMem_of_mem_splitOn cut
  · have joined := (Text.slash_cons_join filled).trans (Text.slashed_splitOn stem)
    rw [← String.toList_inj, directoryPattern, String.toList_append, (List.cons.inj joined).2,
      split]
    rfl

theorem excludedBy_directoryPattern_iff {p : Path} (relative : p.anchor = .relative)
    (proper : p.Proper) {names : List String} (filled : names ≠ [])
    (clean : ∀ name ∈ names, '/' ∉ name.toList) :
    excludedBy p (directoryPattern names) = true ↔ names <:+: p.parts.dropLast := by
  have needle : '/' :: (directoryPattern names).toList = Text.slashed names ++ ['/'] := by
    rw [directoryPattern, String.toList_append, ← List.cons_append, Text.slash_cons_join filled]
    rfl
  rw [excludedBy, isDirectoryPattern_directoryPattern, if_pos rfl, namesDirectoryOf, Text.holds_iff,
    needle]
  -- A path without parts is shown as a dot, which no name between slashes is in.
  by_cases empty : p.parts = []
  · have shown : p.text = Text.join "/" ["."] := by
      rw [Path.text, if_pos ⟨relative, empty⟩]
      rfl
    rw [shown, Text.slash_cons_join (List.cons_ne_nil _ _), empty]
    exact Text.slashed_infix_iff filled clean (by decide)
  · have shown : p.text = Text.join "/" p.parts := by
      rw [Path.text, if_neg fun h => empty h.2, relative, Anchor.text, String.empty_append]
    rw [shown, Text.slash_cons_join empty]
    exact Text.slashed_infix_iff filled clean fun part mem => (proper part mem).2

/-- A pattern for directories leaves a path out exactly if its names follow one another among the
directories that the path goes through, wherever they begin. So it does not for a part of a name,
or for the name of the file, and not at all with an empty name. Every text that ends with a slash
is such a pattern. -/
theorem directory_pattern_excludes_iff (p : Path) (relative : p.anchor = .relative)
    (proper : p.Proper) :
    (∀ names : List String, names ≠ [] → (∀ name ∈ names, '/' ∉ name.toList) →
      (excludedBy p (directoryPattern names) = true ↔ names <:+: p.parts.dropLast) ∧
      ("" ∈ names → excludedBy p (directoryPattern names) = false)) ∧
    ∀ pattern : String, isDirectoryPattern pattern = true ↔
      ∃ names : List String, names ≠ [] ∧ (∀ name ∈ names, '/' ∉ name.toList) ∧
        pattern = directoryPattern names := by
  refine ⟨fun names filled clean => ?_, fun pattern => ⟨exists_names_of_isDirectoryPattern, ?_⟩⟩
  · have meets := excludedBy_directoryPattern_iff relative proper filled clean
    refine ⟨meets, fun nameless => ?_⟩
    rw [← Bool.not_eq_true, meets]
    intro occurs
    have part := List.dropLast_subset p.parts (occurs.subset nameless)
    exact absurd (proper "" part).1 (by decide)
  · rintro ⟨names, -, -, rfl⟩
    exact isDirectoryPattern_directoryPattern names

theorem nested_directories_excluded :
    excludedBy ⟨.relative, ["ios", "Tests", "Unit", "A.swift"]⟩ "Tests/Unit/" = true ∧
      excludedBy ⟨.relative, ["ios", "MyTests", "Unit", "A.swift"]⟩ "Tests/Unit/" = false ∧
      excludedBy ⟨.relative, ["ios", "Tests", "Unit"]⟩ "Tests/Unit/" = false := by
  have pattern : "Tests/Unit/" = directoryPattern ["Tests", "Unit"] := by decide
  have meets : ∀ p : Path, p.anchor = .relative → p.Proper →
      (excludedBy p "Tests/Unit/" = true ↔ ["Tests", "Unit"] <:+: p.parts.dropLast) := by
    intro p relative proper
    rw [pattern]
    exact ((directory_pattern_excludes_iff p relative proper).1 _ (by decide) (by decide)).1
  refine ⟨(meets _ rfl ?_).mpr (by decide), ?_, ?_⟩
  · unfold Path.Proper
    decide
  · rw [← Bool.not_eq_true, meets _ rfl (by unfold Path.Proper; decide)]
    decide
  · rw [← Bool.not_eq_true, meets _ rfl (by unfold Path.Proper; decide)]
    decide

theorem liesInIgnored_iff {p : Path} (relative : p.anchor = .relative) :
    liesInIgnored p = true ↔ ∃ name ∈ p.parts.dropLast, name ∈ ignoredDirectories := by
  have parts : p.components = p.parts := if_neg (by simp [Path.isAbsolute, relative])
  rw [liesInIgnored, parts, List.any_eq_true]
  simp only [List.contains_iff_mem]

/-- All that a list of patterns leaves out: what is in a directory that is always ignored, what is
below directories that a pattern names, and what fits a wildcard as a whole. -/
theorem isExcluded_iff {patterns : List String} {p : Path} (relative : p.anchor = .relative)
    (proper : p.Proper) : isExcluded patterns p = true ↔
      (∃ name ∈ p.parts.dropLast, name ∈ ignoredDirectories) ∨
      (∃ names, directoryPattern names ∈ patterns ∧ names ≠ [] ∧
        (∀ name ∈ names, '/' ∉ name.toList) ∧ names <:+: p.parts.dropLast) ∨
      ∃ pattern ∈ patterns, isDirectoryPattern pattern = false ∧
        Wildcard.fits pattern p.text = true := by
  rw [isExcluded, Bool.or_eq_true, liesInIgnored_iff relative, List.any_eq_true]
  refine or_congr_right ⟨?_, ?_⟩
  · rintro ⟨pattern, mem, excludes⟩
    cases ends : isDirectoryPattern pattern with
    | true =>
      obtain ⟨names, filled, clean, rfl⟩ := exists_names_of_isDirectoryPattern ends
      exact .inl ⟨names, mem, filled, clean,
        (excludedBy_directoryPattern_iff relative proper filled clean).mp excludes⟩
    | false =>
      rw [excludedBy, ends, if_neg Bool.false_ne_true] at excludes
      exact .inr ⟨pattern, mem, ends, excludes⟩
  · rintro (⟨names, mem, filled, clean, occurs⟩ | ⟨pattern, mem, ends, fits⟩)
    · exact ⟨_, mem, (excludedBy_directoryPattern_iff relative proper filled clean).mpr occurs⟩
    · refine ⟨pattern, mem, ?_⟩
      rwa [excludedBy, ends, if_neg Bool.false_ne_true]

end ModuleStubs
