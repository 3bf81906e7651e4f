import ModuleStubs.Discovery.Glob
import ModuleStubs.Proofs.Disk.Tree

/-! What a glob finds. Names fit the steps of a pattern or they do not, whatever is on the disk; of
all files the glob finds just those whose names below its directory fit. -/

namespace ModuleStubs

namespace Wildcard

theorem accepts_chars_iff {word cs : List Char} :
    accepts (word.map .char) cs = true ↔ cs = word := by
  induction word generalizing cs with
  | nil => simp [accepts]
  | cons c word ih =>
    cases cs with
    | nil => simp [accepts]
    | cons d cs => simp [accepts, Mark.fits, ih]

theorem accepts_run_iff {word cs : List Char} :
    accepts (.run :: word.map .char) cs = true ↔ word <:+ cs := by
  rw [accepts, List.any_eq_true]
  constructor
  · rintro ⟨rest, mem, accepted⟩
    obtain ⟨front, rfl⟩ := mem_suffixes.mp mem
    rw [accepts_chars_iff.mp accepted]
    exact List.suffix_append front word
  · rintro ⟨front, rfl⟩
    exact ⟨word, mem_suffixes.mpr ⟨front, rfl⟩, accepts_chars_iff.mpr rfl⟩

end Wildcard

namespace Glob

open Disk

/-- Names of a file that fit the steps of a pattern. Two stars stand for directories one below the
other, so that the file needs one more step. -/
inductive Fits : List Step → List String → Prop
  | done : Fits [] []
  | deep {steps : List Step} {names : List String} (down : List String) (inside : ".." ∉ down)
    (more : steps ≠ []) (rest : Fits steps names) : Fits (.deep :: steps) (down ++ names)
  | wild {marks : List Wildcard.Mark} {name : String} {steps : List Step} {names : List String}
    (accepted : Wildcard.accepts marks name.toList = true) (inside : name ≠ "..")
    (rest : Fits steps names) : Fits (.wild marks :: steps) (name :: names)
  | named {part : String} {steps : List Step} {names : List String} (rest : Fits steps names) :
    Fits (.named part :: steps) (part :: names)

theorem Fits.eq_nil_iff {steps : List Step} {names : List String} (fits : Fits steps names) :
    names = [] ↔ steps = [] := by
  induction fits with
  | done => simp
  | deep down inside more rest ih => simp [ih, more]
  | wild => simp
  | named => simp

variable {d : Disk} {p q : Path} {l : Location} {directoriesOnly : Bool} {steps : List Step}
  {names : List String}

theorem mem_directoriesFrom_iff (tree : d.IsTree) (there : d.item? l = some .directory) :
    names ∈ directoriesFrom d l ↔ d.item? (l ++ names) = some .directory := by
  rw [directoriesFrom, List.mem_cons, List.mem_filterMap]
  constructor
  · rintro (rfl | ⟨⟨place, e⟩, mem, given⟩)
    · rwa [List.append_nil]
    · dsimp only at given
      split_ifs at given with within
      obtain ⟨rfl, other, above⟩ := within
      obtain ⟨down, rfl⟩ := List.isPrefixOf_iff_prefix.mp above
      cases given
      rw [List.drop_left]
      refine tree.item?_of_mem (fun top => other ?_) mem
      rw [List.append_eq_nil_iff] at top
      rw [top.1, top.2, List.append_nil]
  · intro directory
    by_cases here : names = []
    · exact .inl here
    · have inner : l ++ names ≠ [] := List.append_ne_nil_of_right_ne_nil l here
      refine .inr ⟨_, mem_of_item? inner directory, ?_⟩
      have below : l.isPrefixOf (l ++ names) = true := List.isPrefixOf_iff_prefix.mpr ⟨names, rfl⟩
      simp [below, here]

def Inner (d : Disk) (p : Path) : Prop := ∀ l, d.find p = .ok l → d.item? l = some .directory

theorem Inner.not_isFile (inner : Inner d p) : d.isFile p ≠ .ok true := by
  intro file
  obtain ⟨l, bytes, found, there⟩ := isFile_eq_true_iff.mp file
  cases (inner l found).symm.trans there

theorem Inner.append (start : d.find p = .ok l) (down : ".." ∉ names)
    (there : d.item? (l ++ names) = some .directory) :
    Inner d ⟨p.anchor, p.parts ++ names⟩ := by
  intro goal found
  rwa [eq_append_of_find start down found]

theorem mayEnd_eq_true_iff {e : Option Entry} :
    mayEnd directoriesOnly e = true ↔ (directoriesOnly = true → e = some .directory) := by
  cases directoriesOnly <;> simp [mayEnd]

theorem onlyDirectories_iff :
    (directoriesOnly || !steps.isEmpty) = true ↔ steps ≠ [] ∨ directoriesOnly = true := by
  simp [or_comm]

abbrev fitting (d : Disk) (directoriesOnly : Bool) (marks : List Wildcard.Mark) (steps : List Step)
    (l : Location) : List String :=
  (d.names l).filter fun name => Wildcard.accepts marks name.toList &&
    mayEnd (directoriesOnly || !steps.isEmpty) (d.item? (l ++ [name]))

theorem mem_fitting_iff {marks : List Wildcard.Mark} {name : String} :
    name ∈ fitting d directoriesOnly marks steps l ↔ name ∈ d.names l ∧
      Wildcard.accepts marks name.toList = true ∧
      (steps ≠ [] ∨ directoriesOnly = true → d.item? (l ++ [name]) = some .directory) := by
  rw [fitting, List.mem_filter, Bool.and_eq_true, mayEnd_eq_true_iff, onlyDirectories_iff]

def isPresent (d : Disk) (directoriesOnly : Bool) (steps : List Step) (p : Path) :
    Except DiskFault Bool :=
  if directoriesOnly || !steps.isEmpty then d.isDirectory p else d.exists? p

theorem isPresent_eq_true_iff : isPresent d directoriesOnly steps p = .ok true ↔
    ∃ l e, d.find p = .ok l ∧ d.item? l = some e ∧
      (steps ≠ [] ∨ directoriesOnly = true → e = .directory) := by
  rw [isPresent]
  split_ifs with further
  · rw [onlyDirectories_iff] at further
    simp [isDirectory_eq_true_iff, HasDirectory, further]
  · rw [onlyDirectories_iff] at further
    simp [exists?, check_eq_true_iff, further]

theorem follow_named (part : String) :
    follow d directoriesOnly (.named part :: steps) p =
      isPresent d directoriesOnly steps (p.child part) >>= fun present =>
        if present then follow d directoriesOnly steps (p.child part) else .ok [] := by
  rw [follow, isPresent]
  split_ifs <;> rfl

/-- From wherever the rest of a glob goes on, it finds this file exactly if the names fit, and not
at all if it asks for directories. -/
def Finds (d : Disk) (directoriesOnly : Bool) (steps : List Step) (q : Path) : Prop :=
  ∀ p found, (steps ≠ [] ∨ directoriesOnly = true → Inner d p) →
    follow d directoriesOnly steps p = .ok found →
    (q ∈ found ↔ directoriesOnly = false ∧
      ∃ names, q = ⟨p.anchor, p.parts ++ names⟩ ∧ Fits steps names)

section

variable (file : d.isFile q = .ok true)

include file

theorem finds_nil : Finds d directoriesOnly [] q := by
  intro p found inner done
  cases done
  rw [List.mem_singleton]
  constructor
  · rintro rfl
    refine ⟨?_, [], by rw [List.append_nil], .done⟩
    by_contra only
    exact (inner (.inr (by simpa using only))).not_isFile file
  · rintro ⟨-, names, rfl, fits⟩
    cases fits
    rw [List.append_nil]

theorem finds_deep (tree : d.IsTree) (further : Finds d directoriesOnly steps q) :
    Finds d directoriesOnly (.deep :: steps) q := by
  intro p found inner done
  obtain ⟨goal, bytes, led, there⟩ := isFile_eq_true_iff.mp file
  obtain ⟨l, start, done⟩ := of_bind_eq_ok done
  obtain ⟨lists, each, done⟩ := of_bind_eq_ok done
  cases done
  have directory := inner (.inl (List.cons_ne_nil _ _)) l start
  have below : ∀ names ∈ directoriesFrom d l, Inner d ⟨p.anchor, p.parts ++ names⟩ := by
    intro names mem
    have there := (mem_directoriesFrom_iff tree directory).mp mem
    exact .append start (tree.down there) there
  rw [mem_flatten_mapM_iff each fun names mem list => further _ list fun _ => below names mem]
  constructor
  · rintro ⟨down, mem, only, names, rfl, fits⟩
    have there := (mem_directoriesFrom_iff tree directory).mp mem
    refine ⟨only, down ++ names, by rw [List.append_assoc], ?_⟩
    refine .deep down (tree.down there) (fun last => ?_) fits
    -- Without a further step only directories are found.
    subst last
    cases fits
    rw [List.append_nil] at file
    exact (below down mem).not_isFile file
  · rintro ⟨only, names, rfl, fits⟩
    cases fits with
    | @deep _ rest down inside more fits =>
      obtain ⟨e, on, further⟩ := item?_on_way start inside led there
      rw [further fun none => more (fits.eq_nil_iff.mp none)] at on
      refine ⟨down, (mem_directoriesFrom_iff tree directory).mpr on, only, rest, ?_, fits⟩
      rw [List.append_assoc]

theorem finds_wild (tree : d.IsTree) (further : Finds d directoriesOnly steps q)
    (marks : List Wildcard.Mark) : Finds d directoriesOnly (.wild marks :: steps) q := by
  intro p found inner done
  obtain ⟨goal, bytes, led, there⟩ := isFile_eq_true_iff.mp file
  obtain ⟨l, start, done⟩ := of_bind_eq_ok done
  obtain ⟨lists, each, done⟩ := of_bind_eq_ok done
  cases done
  have below : ∀ name ∈ fitting d directoriesOnly marks steps l,
      steps ≠ [] ∨ directoriesOnly = true → Inner d (p.child name) := by
    intro name mem further
    have directory := (mem_fitting_iff.mp mem).2.2 further
    exact .append start (tree.down directory) directory
  rw [mem_flatten_mapM_iff each fun name mem list => further _ list (below name mem)]
  constructor
  · rintro ⟨name, mem, only, names, rfl, fits⟩
    obtain ⟨listed, accepted, -⟩ := mem_fitting_iff.mp mem
    obtain ⟨e, entry⟩ := mem_names_iff.mp listed
    have there := tree.item?_of_mem (List.concat_ne_nil name l) entry
    have inside : name ≠ ".." := fun up => tree.down there (List.mem_singleton.mpr up.symm)
    exact ⟨only, name :: names, by rw [List.append_cons]; rfl, .wild accepted inside fits⟩
  · rintro ⟨only, names, rfl, fits⟩
    cases fits with
    | @wild _ name _ rest accepted inside fits =>
      have down : ".." ∉ [name] := fun up => inside (List.mem_singleton.mp up).symm
      obtain ⟨e, on, further⟩ := item?_on_way start down led there
      refine ⟨name, mem_fitting_iff.mpr ⟨?_, accepted, ?_⟩, only, rest, ?_, fits⟩
      · exact mem_names_iff.mpr ⟨e, mem_of_item? (List.concat_ne_nil name l) on⟩
      · rintro (more | more)
        · rw [on, further fun none => more (fits.eq_nil_iff.mp none)]
        · cases only.symm.trans more
      · rw [List.append_cons]
        rfl

theorem isPresent_of_fits {part : String} (q_eq : q = ⟨p.anchor, p.parts ++ part :: names⟩)
    (fits : Fits steps names) : isPresent d false steps (p.child part) = .ok true := by
  subst q_eq
  obtain ⟨goal, bytes, led, there⟩ := isFile_eq_true_iff.mp file
  by_cases last : names = []
  · rw [last] at led
    have none := fits.eq_nil_iff.mp last
    exact isPresent_eq_true_iff.mpr ⟨goal, _, led, there, by simp [none]⟩
  · rw [List.append_cons] at led
    have above : HasDirectory d (p.child part) := hasDirectory_of_find last led
    obtain ⟨m, found, directory⟩ := above
    exact isPresent_eq_true_iff.mpr ⟨m, _, found, directory, fun _ => rfl⟩

theorem finds_named (further : Finds d directoriesOnly steps q) (part : String) :
    Finds d directoriesOnly (.named part :: steps) q := by
  intro p found inner done
  rw [follow_named] at done
  obtain ⟨present, given, done⟩ := of_bind_eq_ok done
  cases present with
  | false =>
    cases done
    refine iff_of_false List.not_mem_nil ?_
    rintro ⟨rfl, names, same, fits⟩
    cases fits with
    | named fits => cases given.symm.trans (isPresent_of_fits file same fits)
  | true =>
    have below : steps ≠ [] ∨ directoriesOnly = true → Inner d (p.child part) := by
      intro more l found
      obtain ⟨m, e, found', there, directory⟩ := isPresent_eq_true_iff.mp given
      rw [Except.ok.inj (found.symm.trans found'), there, directory more]
    rw [further _ found below done]
    constructor
    · rintro ⟨only, names, rfl, fits⟩
      exact ⟨only, part :: names, by rw [List.append_cons]; rfl, .named fits⟩
    · rintro ⟨only, names, rfl, fits⟩
      cases fits with
      | named fits => exact ⟨only, _, by rw [List.append_cons]; rfl, fits⟩

/-- Of all files a glob finds those whose names fit its steps, and none if it asks for
directories. -/
theorem finds (tree : d.IsTree) (steps : List Step) : Finds d directoriesOnly steps q := by
  induction steps with
  | nil => exact finds_nil file
  | cons step steps ih =>
    cases step with
    | deep => exact finds_deep file tree ih
    | wild marks => exact finds_wild file tree ih marks
    | named part => exact finds_named file ih part

end

theorem follow_failsOnly (tree : d.IsTree) (start : FailsOnly TooLong (d.find p))
    (inner : steps ≠ [] → Inner d p) :
    FailsOnly TooLong (follow d directoriesOnly steps p) := by
  induction steps generalizing p with
  | nil => exact .ok [p]
  | cons step steps ih =>
    have here := inner (List.cons_ne_nil step steps)
    cases step with
    | deep =>
      refine .bind start fun l led => .bind (.mapM fun down mem => ?_) fun _ _ => .ok _
      have there := (mem_directoriesFrom_iff tree (here l led)).mp mem
      exact ih (tree.find_failsOnly led there) fun _ => .append led (tree.down there) there
    | wild marks =>
      refine .bind start fun l led => .bind (.mapM fun name mem => ?_) fun _ _ => .ok _
      obtain ⟨listed, -, further⟩ := mem_fitting_iff.mp mem
      obtain ⟨e, entry⟩ := mem_names_iff.mp listed
      have there := tree.item?_of_mem (List.concat_ne_nil name l) entry
      refine ih (tree.find_failsOnly led there) fun more => ?_
      exact .append led (tree.down there) (further (.inl more))
    | named part =>
      have looked : FailsOnly TooLong (isPresent d directoriesOnly steps (p.child part)) := by
        rw [isPresent]
        split_ifs
        · exact check_failsOnly _ d _
        · exact check_failsOnly _ d _
      rw [follow_named]
      refine .bind looked fun present given => ?_
      cases present with
      | false => exact .ok []
      | true =>
        obtain ⟨m, e, found, there, directory⟩ := isPresent_eq_true_iff.mp given
        refine ih (found ▸ .ok m) fun more l found' => ?_
        rw [Except.ok.inj (found'.symm.trans found), there, directory (.inl more)]

def Step.room (d : Disk) : Step → Nat
  | .deep => d.reach
  | .wild _ => d.reach
  | .named part => weight [part]

def room (d : Disk) : List Step → Nat
  | [] => 0
  | step :: steps => step.room d + room d steps

/-- Nothing that the steps lead to from a path is too long for the disk. -/
structure HasRoom (d : Disk) (steps : List Step) (p : Path) : Prop where
  path : bytes p + Glob.room d steps ≤ maxPathBytes
  name : ∀ part, .named part ∈ steps → byteLength part ≤ maxNameBytes

theorem HasRoom.bytes_le {step : Step} (room : HasRoom d (step :: steps) p)
    (few : weight names ≤ step.room d) : bytes p + weight names ≤ maxPathBytes := by
  have whole := room.path
  rw [Glob.room] at whole
  omega

theorem HasRoom.rest {step : Step} (room : HasRoom d (step :: steps) p)
    (few : weight names ≤ step.room d) : HasRoom d steps ⟨p.anchor, p.parts ++ names⟩ := by
  refine ⟨?_, fun part mem => room.name part (List.mem_cons_of_mem step mem)⟩
  have whole := room.path
  rw [Glob.room] at whole
  rw [bytes_append]
  omega

/-- With room enough there is an answer, and whatever is found can be looked at. -/
theorem exists_follow (tree : d.IsTree) (start : d.find p = .ok l)
    (inner : steps ≠ [] → d.item? l = some .directory) (room : HasRoom d steps p) :
    ∃ found, follow d directoriesOnly steps p = .ok found ∧ ∀ q ∈ found, ∃ m, d.find q = .ok m := by
  induction steps generalizing p l with
  | nil => exact ⟨[p], rfl, fun q mem => ⟨l, by rwa [List.mem_singleton.mp mem]⟩⟩
  | cons step steps ih =>
    have directory := inner (List.cons_ne_nil step steps)
    cases step with
    | deep =>
      rw [follow, start]
      refine exists_flatten_mapM fun down mem => ?_
      have there := (mem_directoriesFrom_iff tree directory).mp mem
      have few : weight down ≤ Step.room d .deep := weight_le_reach there
      have found := tree.find_of_item? start there (room.bytes_le few)
      exact ih found (fun _ => there) (room.rest few)
    | wild marks =>
      rw [follow, start]
      refine exists_flatten_mapM fun name mem => ?_
      obtain ⟨listed, -, further⟩ := mem_fitting_iff.mp mem
      obtain ⟨e, entry⟩ := mem_names_iff.mp listed
      have there := tree.item?_of_mem (List.concat_ne_nil name l) entry
      have few : weight [name] ≤ Step.room d (.wild marks) := weight_le_reach there
      have found := tree.find_of_item? start there (room.bytes_le few)
      exact ih found (fun more => further (.inl more)) (room.rest few)
    | named part =>
      have few : weight [part] ≤ Step.room d (.named part) := le_refl _
      have fits := room.name part List.mem_cons_self
      have looked : ∃ present, isPresent d directoriesOnly steps (p.child part) = .ok present := by
        rw [isPresent]
        split_ifs
        · exact exists_check_child start (room.bytes_le few) fits
        · exact exists_check_child start (room.bytes_le few) fits
      obtain ⟨present, given⟩ := looked
      rw [follow_named, given]
      cases present with
      | false => exact ⟨[], rfl, fun q mem => absurd mem List.not_mem_nil⟩
      | true =>
        obtain ⟨m, e, found, there, further⟩ := isPresent_eq_true_iff.mp given
        exact ih found (fun more => by rw [there, further (.inl more)]) (room.rest few)

/-- What can be looked for: names below a directory, with two stars only as a name of their own. -/
structure Acceptable (pattern : String) : Prop where
  relative : (Path.ofString pattern).isAbsolute = false
  named : (Path.ofString pattern).parts ≠ []
  apart : ∀ part ∈ (Path.ofString pattern).parts,
    part = "**" ∨ Text.holds ['*', '*'] part.toList = false

theorem exists_step_iff {part : String} :
    (∃ s, step part = .ok s) ↔ part = "**" ∨ Text.holds ['*', '*'] part.toList = false := by
  rw [step]
  split_ifs with deep mixed wild
  · simp [deep]
  · simp [deep, mixed]
  · simp [mixed]
  · simp [mixed]

theorem read_eq_ok_iff {pattern : String} {g : Glob} : read pattern = .ok g ↔
    (Path.ofString pattern).isAbsolute = false ∧ (Path.ofString pattern).parts ≠ [] ∧
      (Path.ofString pattern).parts.mapM step = .ok g.steps ∧
      g.directoriesOnly = decide (pattern.toList.getLast? = some '/') := by
  rw [read]
  split_ifs with empty absolute nameless
  · have none : (Path.ofString pattern).parts = [] := by rw [empty]; rfl
    simp [none]
  · simp [absolute]
  · simp [nameless]
  · cases (Path.ofString pattern).parts.mapM step with
    | error why => simp [bind, Except.bind]
    | ok steps =>
      cases g
      simp [bind, Except.bind, absolute, nameless, eq_comm]

theorem exists_read_iff {pattern : String} : (∃ g, read pattern = .ok g) ↔ Acceptable pattern := by
  constructor
  · rintro ⟨g, given⟩
    obtain ⟨relative, named, steps, -⟩ := read_eq_ok_iff.mp given
    have each := exists_mapM_eq_ok_iff.mp ⟨g.steps, steps⟩
    exact ⟨relative, named, fun part mem => exists_step_iff.mp (each part mem)⟩
  · rintro ⟨relative, named, apart⟩
    have each := exists_mapM_eq_ok_iff.mpr fun part mem => exists_step_iff.mpr (apart part mem)
    obtain ⟨steps, given⟩ := each
    exact ⟨⟨steps, _⟩, read_eq_ok_iff.mpr ⟨relative, named, given, rfl⟩⟩

theorem steps_ne_nil {pattern : String} {g : Glob} (given : read pattern = .ok g) :
    g.steps ≠ [] := by
  obtain ⟨-, named, steps, -⟩ := read_eq_ok_iff.mp given
  intro none
  obtain ⟨part, mem⟩ := List.exists_mem_of_ne_nil _ named
  obtain ⟨s, first⟩ := exists_mapM_eq_ok_iff.mp ⟨g.steps, steps⟩ part mem
  have listed : s ∈ g.steps := (mem_mapM_iff steps).mpr ⟨part, mem, first⟩
  rw [none] at listed
  cases listed

def Matches (pattern : String) (names : List String) : Prop :=
  ∃ g, read pattern = .ok g ∧ g.directoriesOnly = false ∧ Fits g.steps names

/-- The pattern of a project without settings stands for the files whose names end in the way of
sources, however deep they lie. -/
theorem matches_swift_iff {names : List String} : Matches "**/*.swift" names ↔
    ∃ down name, names = down ++ [name] ∧ ".." ∉ down ∧ ".swift".toList <:+ name.toList := by
  have given : read "**/*.swift" =
      .ok ⟨[.deep, .wild (.run :: ".swift".toList.map .char)], false⟩ := rfl
  constructor
  · rintro ⟨g, read, -, fits⟩
    cases given.symm.trans read
    obtain - | @⟨_, _, down, inside, -, fits⟩ := fits
    obtain - | - | @⟨_, name, _, _, accepted, -, fits⟩ := fits
    cases fits
    exact ⟨down, name, rfl, inside, Wildcard.accepts_run_iff.mp accepted⟩
  · rintro ⟨down, name, rfl, inside, ends⟩
    have other : name ≠ ".." := by
      rintro rfl
      revert ends
      decide
    exact ⟨_, given, rfl, .deep down inside (List.cons_ne_nil _ _)
      (.wild (Wildcard.accepts_run_iff.mpr ends) other .done)⟩

variable {root : Path} {found : List Path}

theorem mem_paths_iff (tree : d.IsTree) {pattern : String} {g : Glob}
    (given : read pattern = .ok g) (done : g.paths d root = .ok found)
    (file : d.isFile q = .ok true) :
    q ∈ found ↔ ∃ names, q = ⟨root.anchor, root.parts ++ names⟩ ∧ Matches pattern names := by
  have reads : ∀ names, Matches pattern names ↔ g.directoriesOnly = false ∧ Fits g.steps names := by
    intro names
    rw [Matches, given]
    simp
  obtain ⟨there, looked, done⟩ := of_bind_eq_ok done
  cases there with
  | false =>
    cases done
    refine iff_of_false List.not_mem_nil ?_
    rintro ⟨names, rfl, fits⟩
    obtain ⟨l, bytes, led, -⟩ := isFile_eq_true_iff.mp file
    have more : names ≠ [] := fun none =>
      steps_ne_nil given (((reads names).mp fits).2.eq_nil_iff.mp none)
    cases looked.symm.trans (isDirectory_eq_true_iff.mpr (hasDirectory_of_find more led))
  | true =>
    obtain ⟨l, start, directory⟩ := isDirectory_eq_true_iff.mp looked
    have inner : Inner d root := fun m led => by rwa [Except.ok.inj (led.symm.trans start)]
    rw [finds file tree g.steps root found (fun _ => inner) done]
    constructor
    · rintro ⟨only, names, same, fits⟩
      exact ⟨names, same, (reads names).mpr ⟨only, fits⟩⟩
    · rintro ⟨names, same, fits⟩
      exact ⟨((reads names).mp fits).1, names, same, ((reads names).mp fits).2⟩

theorem paths_failsOnly (tree : d.IsTree) (g : Glob) (root : Path) :
    FailsOnly TooLong (g.paths d root) := by
  refine .bind (check_failsOnly _ d root) fun there looked => ?_
  cases there with
  | false => exact .ok []
  | true =>
    obtain ⟨l, start, directory⟩ := isDirectory_eq_true_iff.mp looked
    refine follow_failsOnly tree (start ▸ .ok l) fun _ m led => ?_
    rwa [Except.ok.inj (led.symm.trans start)]

theorem exists_paths (tree : d.IsTree) {g : Glob} (looked : ∃ there, d.isDirectory root = .ok there)
    (room : HasRoom d g.steps root) :
    ∃ found, g.paths d root = .ok found ∧ ∀ q ∈ found, ∃ m, d.find q = .ok m := by
  obtain ⟨there, looked⟩ := looked
  rw [paths, looked]
  cases there with
  | false => exact ⟨[], rfl, fun q mem => absurd mem List.not_mem_nil⟩
  | true =>
    obtain ⟨l, start, directory⟩ := isDirectory_eq_true_iff.mp looked
    exact exists_follow tree start (fun _ => directory) room

end Glob

end ModuleStubs
