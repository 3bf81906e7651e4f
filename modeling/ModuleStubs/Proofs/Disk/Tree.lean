import Mathlib.Data.List.Induction
import Mathlib.Data.List.MinMax
import ModuleStubs.Proofs.Disk.Ways

/-! Disks whose entries make up a tree, and the ways down through them. -/

namespace ModuleStubs.Disk

variable {d : Disk} {p : Path} {l goal : Location} {names : List String} {e : Entry}

/-- There is one entry for each place, with a directory above it, and all names are names that
files may have. -/
structure IsTree (d : Disk) : Prop where
  single : (d.entries.map Prod.fst).Nodup
  parent : ∀ entry ∈ d.entries, d.item? entry.1.dropLast = some .directory
  named : ∀ entry ∈ d.entries, ∀ name ∈ entry.1,
    name ≠ ".." ∧ Char.ofNat 0 ∉ name.toList ∧ byteLength name ≤ maxNameBytes

theorem exists_check_of_find {has : Entry → Bool} (found : d.find p = .ok l) :
    ∃ answer, d.check has p = .ok answer := by
  rw [check, stat_of_find found]
  cases d.item? l <;> exact ⟨_, rfl⟩

theorem mem_of_item? (inner : l ≠ []) (there : d.item? l = some e) : (l, e) ∈ d.entries := by
  rw [item?, if_neg inner, lookup, Option.map_eq_some_iff] at there
  obtain ⟨entry, found, rfl⟩ := there
  have place : entry.1 = l := by simpa using List.find?_some found
  rw [← place]
  exact List.mem_of_find?_eq_some found

theorem lookup_of_mem {entries : List (Location × Entry)} (single : (entries.map Prod.fst).Nodup)
    (mem : (l, e) ∈ entries) : lookup l entries = some e := by
  induction entries with
  | nil => cases mem
  | cons entry rest ih =>
    rw [List.map_cons, List.nodup_cons] at single
    rcases List.mem_cons.mp mem with rfl | later
    · simp [lookup]
    · have other : entry.1 ≠ l := fun same =>
        single.1 (List.mem_map.mpr ⟨(l, e), later, same.symm⟩)
      simpa [lookup, other] using ih single.2 later

theorem IsTree.item?_of_mem (tree : d.IsTree) (inner : l ≠ []) (mem : (l, e) ∈ d.entries) :
    d.item? l = some e := by
  rw [item?, if_neg inner]
  exact lookup_of_mem tree.single mem

theorem mem_names_iff {name : String} : name ∈ d.names l ↔ ∃ e, (l ++ [name], e) ∈ d.entries := by
  rw [names, List.mem_filterMap]
  constructor
  · rintro ⟨⟨place, e⟩, mem, given⟩
    dsimp only at given
    split_ifs at given with above
    obtain ⟨front, rfl⟩ := List.getLast?_eq_some_iff.mp given
    rw [List.dropLast_concat] at above
    exact ⟨e, above ▸ mem⟩
  · rintro ⟨e, mem⟩
    exact ⟨_, mem, by simp⟩

theorem IsTree.directory_above (tree : d.IsTree) (more : names ≠ [])
    (there : d.item? (l ++ names) = some e) : d.item? l = some .directory := by
  induction names using List.reverseRecOn generalizing e with
  | nil => exact absurd rfl more
  | append_singleton front name ih =>
    have inner : l ++ (front ++ [name]) ≠ [] := by simp
    have above := tree.parent _ (mem_of_item? inner there)
    rw [← List.append_assoc, List.dropLast_concat] at above
    by_cases last : front = []
    · rwa [last, List.append_nil] at above
    · exact ih last above

theorem follow_eq_append (down : ".." ∉ names) : follow l names = l ++ names := by
  induction names generalizing l with
  | nil => exact (List.append_nil l).symm
  | cons name names ih =>
    have here : name ≠ ".." := fun same => down (same ▸ List.mem_cons_self)
    rw [follow, List.foldl_cons, if_neg here]
    have rest := ih (l := l ++ [name]) fun later => down (List.mem_cons_of_mem name later)
    exact rest.trans (List.append_cons l name names).symm

theorem IsTree.down (tree : d.IsTree) {e : Entry} (there : d.item? (l ++ names) = some e) :
    ".." ∉ names := by
  intro mem
  have inner : l ++ names ≠ [] := List.append_ne_nil_of_right_ne_nil l (List.ne_nil_of_mem mem)
  exact (tree.named _ (mem_of_item? inner there) _ (List.mem_append_right l mem)).1 rfl

theorem eq_append_of_find (start : d.find p = .ok l) (down : ".." ∉ names)
    (found : d.find ⟨p.anchor, p.parts ++ names⟩ = .ok goal) : goal = l ++ names :=
  calc goal = follow (d.start p) (p.parts ++ names) := eq_follow_of_find found
    _ = follow (follow (d.start p) p.parts) names := follow_append _ _ _
    _ = follow l names := by rw [← eq_follow_of_find start]
    _ = l ++ names := follow_eq_append down

theorem hasDirectory_of_find (more : names ≠ [])
    (found : d.find ⟨p.anchor, p.parts ++ names⟩ = .ok goal) : HasDirectory d p := by
  induction names using List.reverseRecOn generalizing goal with
  | nil => exact absurd rfl more
  | append_singleton front name ih =>
    have inner : p.parts ++ (front ++ [name]) ≠ [] := by simp
    have above := hasDirectory_parent found inner
    rw [Path.parent, ← List.append_assoc, List.dropLast_concat] at above
    by_cases last : front = []
    · rwa [last, List.append_nil] at above
    · obtain ⟨m, found, -⟩ := above
      exact ih last found

theorem item?_on_way (start : d.find p = .ok l) (down : ".." ∉ names) {rest : List String}
    (led : d.find ⟨p.anchor, p.parts ++ (names ++ rest)⟩ = .ok goal)
    (there : d.item? goal = some e) :
    ∃ x, d.item? (l ++ names) = some x ∧ (rest ≠ [] → x = .directory) := by
  by_cases last : rest = []
  · rw [last, List.append_nil] at led
    rw [eq_append_of_find start down led] at there
    exact ⟨e, there, fun more => absurd last more⟩
  · rw [← List.append_assoc] at led
    have found : HasDirectory d ⟨p.anchor, p.parts ++ names⟩ := hasDirectory_of_find last led
    obtain ⟨m, found, directory⟩ := found
    rw [eq_append_of_find start down found] at directory
    exact ⟨_, directory, fun _ => rfl⟩

theorem walk_append (l : Location) (first second : List String) :
    d.walk l (first ++ second) = d.walk l first >>= fun m => d.walk m second := by
  induction first generalizing l with
  | nil => rfl
  | cons part first ih =>
    rw [List.cons_append, walk, walk]
    split
    · rfl
    · rfl
    · split_ifs
      · exact ih _
      · rfl
      · exact ih _

/-- On a tree every way down to something can be gone. -/
theorem IsTree.walk_of_item? (tree : d.IsTree) (there : d.item? (l ++ names) = some e) :
    d.walk l names = .ok (l ++ names) := by
  induction names generalizing l with
  | nil => rw [walk, List.append_nil]
  | cons name names ih =>
    have directory := tree.directory_above (List.cons_ne_nil name names) there
    have inner : l ++ name :: names ≠ [] := by simp
    obtain ⟨other, -, short⟩ := tree.named _ (mem_of_item? inner there) name (by simp)
    rw [List.append_cons] at there ⊢
    rw [walk, directory]
    dsimp only
    rw [if_neg other, if_neg (Nat.not_lt.mpr short)]
    exact ih there

def weight : List String → Nat
  | [] => 0
  | name :: names => byteLength name + 1 + weight names

theorem weight_append (first second : List String) :
    weight (first ++ second) = weight first + weight second := by
  induction first with
  | nil => exact (Nat.zero_add _).symm
  | cons name first ih =>
    rw [List.cons_append, weight, weight, ih]
    exact (Nat.add_assoc _ _ _).symm

theorem byteLength_join (more : names ≠ []) :
    byteLength (Text.join "/" names) + 1 = weight names := by
  induction names with
  | nil => exact absurd rfl more
  | cons name names ih =>
    cases names with
    | nil => simp [Text.join, weight]
    | cons second names =>
      have joined : Text.join "/" (name :: second :: names) =
          name ++ "/" ++ Text.join "/" (second :: names) := String.intercalate_cons_cons
      have rest := ih (List.cons_ne_nil _ _)
      have slash : byteLength "/" = 1 := by decide
      rw [joined, byteLength_append, byteLength_append, slash]
      have head : weight (name :: second :: names) =
          byteLength name + 1 + weight (second :: names) := rfl
      omega

def bytes (p : Path) : Nat := byteLength p.anchor.text + weight p.parts

theorem bytes_append (p : Path) (names : List String) :
    bytes ⟨p.anchor, p.parts ++ names⟩ = bytes p + weight names := by
  rw [bytes, weight_append, bytes, Nat.add_assoc]

theorem byteLength_text_le (p : Path) : byteLength p.text ≤ max 1 (bytes p) := by
  rw [Path.text]
  split_ifs with dot
  · exact Nat.le_max_left _ _
  · rw [byteLength_append, bytes]
    by_cases empty : p.parts = []
    · rw [empty]
      exact Nat.le_max_right _ _
    · have joined := byteLength_join empty
      omega

theorem find_ok_iff : d.find p = .ok l ↔
    hasNull p = false ∧ byteLength p.text ≤ maxPathBytes ∧ d.walk (d.start p) p.parts = .ok l := by
  rw [find]
  split_ifs with null long
  · simp [null]
  · simp [Nat.not_le.mpr long]
  · simp [Bool.eq_false_iff.mpr null, Nat.not_lt.mp long, mapError_eq_ok_iff]

/-- On a tree a path leads to everything below a place that it leads to, if it is not too long. -/
theorem IsTree.find_append (tree : d.IsTree) (start : d.find p = .ok l)
    (there : d.item? (l ++ names) = some e) :
    d.find ⟨p.anchor, p.parts ++ names⟩ =
      if maxPathBytes < byteLength (Path.text ⟨p.anchor, p.parts ++ names⟩) then
        .error (.refused .nameTooLong (Path.text ⟨p.anchor, p.parts ++ names⟩))
      else .ok (l ++ names) := by
  obtain ⟨clean, -, walked⟩ := find_ok_iff.mp start
  have clean' : hasNull ⟨p.anchor, p.parts ++ names⟩ = false := by
    rw [hasNull, List.any_append, Bool.or_eq_false_iff]
    refine ⟨clean, List.any_eq_false.mpr fun name mem => ?_⟩
    have inner : l ++ names ≠ [] := List.append_ne_nil_of_right_ne_nil l (List.ne_nil_of_mem mem)
    have fine := tree.named _ (mem_of_item? inner there) name (List.mem_append_right l mem)
    simpa using fine.2.1
  have walked' : d.walk (d.start ⟨p.anchor, p.parts ++ names⟩) (p.parts ++ names) =
      .ok (l ++ names) := by
    change d.walk (d.start p) (p.parts ++ names) = _
    rw [walk_append, walked]
    exact tree.walk_of_item? there
  rw [find, clean', if_neg Bool.false_ne_true, walked']
  rfl

theorem IsTree.find_of_item? (tree : d.IsTree) (start : d.find p = .ok l)
    (there : d.item? (l ++ names) = some e) (short : bytes p + weight names ≤ maxPathBytes) :
    d.find ⟨p.anchor, p.parts ++ names⟩ = .ok (l ++ names) := by
  have bound := byteLength_text_le ⟨p.anchor, p.parts ++ names⟩
  have room : 1 ≤ maxPathBytes := by decide
  rw [bytes_append] at bound
  rw [tree.find_append start there, if_neg (by omega)]

def TooLong (why : DiskFault) : Prop := ∃ subject, why = .refused .nameTooLong subject

theorem IsTree.find_failsOnly (tree : d.IsTree) (start : d.find p = .ok l)
    (there : d.item? (l ++ names) = some e) :
    FailsOnly TooLong (d.find ⟨p.anchor, p.parts ++ names⟩) := by
  rw [tree.find_append start there]
  split_ifs
  · rintro _ ⟨⟩
    exact ⟨_, rfl⟩
  · exact .ok _

theorem check_failsOnly (has : Entry → Bool) (d : Disk) (p : Path) :
    FailsOnly TooLong (d.check has p) := by
  rw [check]
  split
  · exact .ok _
  · rintro _ ⟨⟩
    exact ⟨_, rfl⟩
  · exact .ok _

def reach (d : Disk) : Nat := (d.entries.map fun entry => weight entry.1).foldr max 0

theorem weight_le_reach (there : d.item? (l ++ names) = some e) : weight names ≤ d.reach := by
  by_cases none : names = []
  · rw [none]
    exact Nat.zero_le _
  · have inner : l ++ names ≠ [] := List.append_ne_nil_of_right_ne_nil l none
    have listed := List.mem_map_of_mem (f := fun entry => weight entry.1) (mem_of_item? inner there)
    refine List.le_max_of_le' 0 listed ?_
    rw [weight_append]
    exact Nat.le_add_left _ _

theorem find_child (start : d.find p = .ok l) {name : String}
    (short : bytes p + weight [name] ≤ maxPathBytes) (clean : hasNull (p.child name) = false) :
    d.find (p.child name) = (d.walk l [name]).mapError (.refused · (p.child name).text) := by
  obtain ⟨-, -, walked⟩ := find_ok_iff.mp start
  have bound := byteLength_text_le (p.child name)
  have whole : bytes (p.child name) = bytes p + weight [name] := bytes_append p [name]
  have room : 1 ≤ maxPathBytes := by decide
  have fine : ¬ maxPathBytes < byteLength (p.child name).text := by omega
  have step : d.walk (d.start (p.child name)) (p.child name).parts = d.walk l [name] := by
    change d.walk (d.start p) (p.parts ++ [name]) = _
    rw [walk_append, walked]
    rfl
  rw [find, clean, if_neg Bool.false_ne_true, if_neg fine, step]

theorem exists_check_child {has : Entry → Bool} (start : d.find p = .ok l) {name : String}
    (short : bytes p + weight [name] ≤ maxPathBytes) (fits : byteLength name ≤ maxNameBytes) :
    ∃ answer, d.check has (p.child name) = .ok answer := by
  cases null : hasNull (p.child name) with
  | true => exact ⟨false, by rw [check, stat, find, null, if_pos rfl]; rfl⟩
  | false =>
    have found := find_child start short null
    rw [walk] at found
    cases there : d.item? l with
    | none =>
      rw [there] at found
      exact ⟨false, by rw [check, stat, found]; rfl⟩
    | some e =>
      rw [there] at found
      cases e with
      | file content => exact ⟨false, by rw [check, stat, found]; rfl⟩
      | directory =>
        dsimp only at found
        rw [if_neg (Nat.not_lt.mpr fits)] at found
        split_ifs at found
        · exact exists_check_of_find found
        · exact exists_check_of_find found

end ModuleStubs.Disk
