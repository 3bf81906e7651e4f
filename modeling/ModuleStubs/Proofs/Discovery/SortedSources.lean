import Mathlib.Data.List.Sort
import ModuleStubs.Project.Run
import ModuleStubs.Proofs.Discovery.Exclusion
import ModuleStubs.Proofs.Discovery.Glob
import ModuleStubs.Proofs.Discovery.Sources
import ModuleStubs.Proofs.Path.RoundTrip

/-! The sources of a project are a set: the files whose names fit one of its patterns and that are
not left out, in the order of paths. So it does not matter how often or in which order the patterns
are given. -/

namespace ModuleStubs

section

variable {d : Disk} {settings : Settings} {pattern : String} {q : Path}

theorem isSource_append_iff {names : List String} :
    isSource d settings ⟨settings.root.anchor, settings.root.parts ++ names⟩ = .ok true ↔
      d.isFile ⟨settings.root.anchor, settings.root.parts ++ names⟩ = .ok true ∧
        isExcluded settings.excludes ⟨.relative, names⟩ = false := by
  rw [isSource, Path.below?_append]
  cases d.isFile ⟨settings.root.anchor, settings.root.parts ++ names⟩ with
  | error why => simp [bind, Except.bind]
  | ok file => cases file <;> simp [bind, Except.bind]

theorem exists_isSource_iff :
    (∃ source, isSource d settings q = .ok source) ↔ ∃ file, d.isFile q = .ok file := by
  rw [isSource]
  cases d.isFile q with
  | error why => simp [bind, Except.bind]
  | ok file => cases file <;> simp [bind, Except.bind]

theorem exists_matching_iff : (∃ found, matching d settings pattern = .ok found) ↔
    ∃ g found, Glob.read pattern = .ok g ∧ g.paths d settings.root = .ok found ∧
      ∀ q ∈ found, ∃ file, d.isFile q = .ok file := by
  constructor
  · rintro ⟨sources, done⟩
    obtain ⟨g, given, done⟩ := of_bind_eq_ok done
    obtain ⟨found, matched, done⟩ := of_bind_eq_ok (mapError_eq_ok_iff.mp done)
    have each := exists_filterM_eq_ok_iff.mp ⟨sources, done⟩
    exact ⟨g, found, mapError_eq_ok_iff.mp given, matched,
      fun q mem => exists_isSource_iff.mp (each q mem)⟩
  · rintro ⟨g, found, given, matched, each⟩
    have checked : ∀ q ∈ found, ∃ source, isSource d settings q = .ok source :=
      fun q mem => exists_isSource_iff.mpr (each q mem)
    obtain ⟨sources, done⟩ := exists_filterM_eq_ok_iff.mpr checked
    refine ⟨sources, ?_⟩
    rw [matching, given]
    change ((g.paths d settings.root >>= _).mapError _) = _
    rw [matched]
    exact mapError_eq_ok_iff.mpr done

theorem mem_matching_iff (tree : d.IsTree) {found : List Path}
    (done : matching d settings pattern = .ok found) :
    q ∈ found ↔ ∃ names, q = ⟨settings.root.anchor, settings.root.parts ++ names⟩ ∧
      d.isFile q = .ok true ∧ Glob.Matches pattern names ∧
      isExcluded settings.excludes ⟨.relative, names⟩ = false := by
  obtain ⟨g, given, done⟩ := of_bind_eq_ok done
  obtain ⟨paths, matched, done⟩ := of_bind_eq_ok (mapError_eq_ok_iff.mp done)
  rw [mapError_eq_ok_iff] at given
  rw [mem_filterM_iff done]
  constructor
  · rintro ⟨mem, source⟩
    have file := isFile_of_isSource source
    obtain ⟨names, rfl, fits⟩ := (Glob.mem_paths_iff tree given matched file).mp mem
    exact ⟨names, rfl, file, fits, (isSource_append_iff.mp source).2⟩
  · rintro ⟨names, rfl, file, fits, kept⟩
    exact ⟨(Glob.mem_paths_iff tree given matched file).mpr ⟨names, rfl, fits⟩,
      isSource_append_iff.mpr ⟨file, kept⟩⟩

/-- A file below the root whose names fit one of the patterns, and that is not left out. -/
def IsSource (d : Disk) (settings : Settings) (q : Path) : Prop :=
  ∃ names, q = ⟨settings.root.anchor, settings.root.parts ++ names⟩ ∧ d.isFile q = .ok true ∧
    (∃ pattern ∈ settings.includes, Glob.Matches pattern names) ∧
    isExcluded settings.excludes ⟨.relative, names⟩ = false

theorem exists_sources_iff : (∃ paths, sources d settings = .ok paths) ↔
    ∀ pattern ∈ settings.includes, ∃ found, matching d settings pattern = .ok found := by
  rw [← exists_mapM_eq_ok_iff,
    ← and_true (∃ lists, settings.includes.mapM (matching d settings) = .ok lists)]
  exact exists_bind_eq_ok_iff fun lists => exists_ok_iff _

variable {paths : List Path}

theorem mem_sources_iff (tree : d.IsTree) (found : sources d settings = .ok paths) :
    q ∈ paths ↔ IsSource d settings q := by
  obtain ⟨lists, matched, found⟩ := of_bind_eq_ok found
  cases found
  rw [SortedSet.mem_ofList,
    mem_flatten_mapM_iff matched fun pattern mem list given => mem_matching_iff tree given]
  constructor
  · rintro ⟨pattern, mem, names, same, file, fits, kept⟩
    exact ⟨names, same, file, ⟨pattern, mem, fits⟩, kept⟩
  · rintro ⟨names, same, file, ⟨pattern, mem, fits⟩, kept⟩
    exact ⟨pattern, mem, names, same, file, fits, kept⟩

theorem pairwise_sources (tree : d.IsTree) (found : sources d settings = .ok paths) :
    paths.Pairwise fun a b => a.components < b.components := by
  have anchored : ∀ a ∈ paths, a.anchor = settings.root.anchor := by
    intro a mem
    obtain ⟨names, rfl, -⟩ := (mem_sources_iff tree found).mp mem
    rfl
  obtain ⟨lists, matched, found⟩ := of_bind_eq_ok found
  cases found
  have trans : ∀ a b c, Path.lt a b → Path.lt b c → Path.lt a c := by
    intro a b c
    simpa only [Path.lt, decide_eq_true_eq] using List.lt_trans
  have total : ∀ a ∈ lists.flatten, ∀ b ∈ lists.flatten,
      a ≠ b → ¬ Path.lt a b → Path.lt b a := by
    intro a left b right ne above
    have start := (anchored a (SortedSet.mem_ofList.mpr left)).trans
      (anchored b (SortedSet.mem_ofList.mpr right)).symm
    rw [Path.lt, decide_eq_true_eq] at above ⊢
    by_contra below
    exact ne (Path.components_injective start (List.le_antisymm below above))
  exact (SortedSet.pairwise_ofList trans total).imp of_decide_eq_true

theorem IsSource.not_ignored (source : IsSource d settings q) :
    ∃ names, q = ⟨settings.root.anchor, settings.root.parts ++ names⟩ ∧
      ∀ name ∈ names.dropLast, name ∉ ignoredDirectories := by
  obtain ⟨names, same, -, -, kept⟩ := source
  refine ⟨names, same, fun name mem ignored => ?_⟩
  rw [isExcluded, Bool.or_eq_false_iff] at kept
  have lies : liesInIgnored ⟨.relative, names⟩ = true :=
    (liesInIgnored_iff rfl).mpr ⟨name, mem, ignored⟩
  cases kept.1.symm.trans lies

theorem IsSource.mono {other : Settings} (source : IsSource d settings q)
    (root : other.root = settings.root) (includes : settings.includes ⊆ other.includes)
    (excludes : other.excludes ⊆ settings.excludes) : IsSource d other q := by
  obtain ⟨names, same, file, ⟨pattern, mem, fits⟩, kept⟩ := source
  refine ⟨names, by rwa [root], file, ⟨pattern, includes mem, fits⟩, ?_⟩
  rw [isExcluded, Bool.or_eq_false_iff, List.any_eq_false] at kept ⊢
  exact ⟨kept.1, fun pattern mem => kept.2 pattern (excludes mem)⟩

theorem exists_sources_mono {other : Settings} (root : other.root = settings.root)
    (includes : other.includes ⊆ settings.includes) (found : sources d settings = .ok paths) :
    ∃ others, sources d other = .ok others := by
  have each := exists_sources_iff.mp ⟨paths, found⟩
  refine exists_sources_iff.mpr fun pattern mem => ?_
  obtain ⟨g, matched, given⟩ := exists_matching_iff.mp (each pattern (includes mem))
  exact exists_matching_iff.mpr ⟨g, matched, by rwa [root]⟩

theorem isSource_failsOnly (d : Disk) (settings : Settings) (q : Path) :
    FailsOnly Disk.TooLong (isSource d settings q) := by
  refine .bind (Disk.check_failsOnly _ d q) fun file _ => ?_
  cases file with
  | false => exact .ok false
  | true => exact .ok _

/-- With acceptable patterns nothing but a path that is too long keeps the sources from being
found. -/
theorem sources_failsOnly (tree : d.IsTree)
    (acceptable : ∀ pattern ∈ settings.includes, Glob.Acceptable pattern) :
    FailsOnly (fun why => ∃ fault, Disk.TooLong fault ∧ why = .disk fault)
      (sources d settings) := by
  refine .bind (.mapM fun pattern mem => ?_) fun _ _ => .ok _
  obtain ⟨g, given⟩ := Glob.exists_read_iff.mpr (acceptable pattern mem)
  have found : FailsOnly Disk.TooLong
      (g.paths d settings.root >>= List.filterM (isSource d settings)) :=
    .bind (Glob.paths_failsOnly tree g settings.root) fun paths _ =>
      .filterM fun q _ => isSource_failsOnly d settings q
  rw [matching, given]
  exact found.mapError fun fault long => ⟨fault, long, rfl⟩

theorem exists_sources (tree : d.IsTree)
    (looked : ∃ there, d.isDirectory settings.root = .ok there)
    (acceptable : ∀ pattern ∈ settings.includes, Glob.Acceptable pattern)
    (room : ∀ pattern ∈ settings.includes, ∀ g, Glob.read pattern = .ok g →
      Glob.HasRoom d g.steps settings.root) : ∃ paths, sources d settings = .ok paths := by
  refine exists_sources_iff.mpr fun pattern mem => ?_
  obtain ⟨g, given⟩ := Glob.exists_read_iff.mpr (acceptable pattern mem)
  obtain ⟨found, matched, leads⟩ := Glob.exists_paths tree looked (room pattern mem g given)
  refine exists_matching_iff.mpr ⟨g, found, given, matched, fun q mem => ?_⟩
  obtain ⟨l, led⟩ := leads q mem
  exact Disk.exists_check_of_find led

end

namespace Project

variable {p : Project} {w v : World} {paths : List Path}

theorem discover_eq_ok_iff :
    p.discover.outcome w = (.ok paths, v) ↔ v = w ∧ sources w.disk p.settings = .ok paths := by
  rw [discover, Run.outcome_bind_of_ok (Run.outcome_disk w)]
  cases sources w.disk p.settings with
  | error why => exact ⟨nofun, nofun⟩
  | ok found =>
    constructor
    · intro h
      cases h
      exact ⟨rfl, rfl⟩
    · rintro ⟨rfl, h⟩
      cases h
      rfl

theorem discover_eq_error {why : Abort} (failed : p.discover.outcome w = (.error why, v)) :
    sources w.disk p.settings = .error why := by
  rw [discover, Run.outcome_bind_of_ok (Run.outcome_disk w)] at failed
  cases found : sources w.disk p.settings with
  | error fault =>
    rw [found] at failed
    cases failed
    rfl
  | ok paths =>
    rw [found] at failed
    cases failed

structure Discovered (p : Project) (w v : World) (paths : List Path) : Prop where
  world : v = w
  increasing : paths.Pairwise fun a b => a.components < b.components
  /-- The files whose names fit some pattern and that are not left out. -/
  mem_iff : ∀ q, q ∈ paths ↔ IsSource w.disk p.settings q
  not_ignored : ∀ q ∈ paths, ∃ names, q = ⟨p.settings.root.anchor, p.settings.root.parts ++ names⟩ ∧
    ∀ name ∈ names.dropLast, name ∉ ignoredDirectories

structure Compares (p : Project) (w : World) (paths : List Path) (other : Project) : Prop where
  answers : other.settings.includes ⊆ p.settings.includes →
    ∃ others, other.discover.outcome w = (.ok others, w)
  grows : ∀ others u, other.discover.outcome w = (.ok others, u) →
    p.settings.includes ⊆ other.settings.includes →
    other.settings.excludes ⊆ p.settings.excludes → paths ⊆ others
  shrinks : ∀ others u, other.discover.outcome w = (.ok others, u) →
    other.settings.includes ⊆ p.settings.includes →
    p.settings.excludes ⊆ other.settings.excludes → others ⊆ paths
  /-- The same patterns, however often and in whatever order, find the same. -/
  same : ∀ others u, other.discover.outcome w = (.ok others, u) →
    (∀ pattern, pattern ∈ other.settings.includes ↔ pattern ∈ p.settings.includes) →
    (∀ pattern, pattern ∈ other.settings.excludes ↔ pattern ∈ p.settings.excludes) →
    others = paths

theorem discovered_of_outcome (tree : w.disk.IsTree)
    (done : p.discover.outcome w = (.ok paths, v)) : p.Discovered w v paths := by
  obtain ⟨rfl, found⟩ := discover_eq_ok_iff.mp done
  have members : ∀ q, q ∈ paths ↔ IsSource v.disk p.settings q :=
    fun q => mem_sources_iff tree found
  exact ⟨rfl, pairwise_sources tree found, members,
    fun q mem => ((members q).mp mem).not_ignored⟩

theorem compares_of_outcome {other : Project} (tree : w.disk.IsTree)
    (done : p.discover.outcome w = (.ok paths, v))
    (root : other.settings.root = p.settings.root) : p.Compares w paths other := by
  have discovered := discovered_of_outcome tree done
  have found := (discover_eq_ok_iff.mp done).2
  have grows : ∀ others u, other.discover.outcome w = (.ok others, u) →
      p.settings.includes ⊆ other.settings.includes →
      other.settings.excludes ⊆ p.settings.excludes → paths ⊆ others := by
    intro others u done more fewer q mem
    exact ((discovered_of_outcome tree done).mem_iff q).mpr
      (((discovered.mem_iff q).mp mem).mono root more fewer)
  have shrinks : ∀ others u, other.discover.outcome w = (.ok others, u) →
      other.settings.includes ⊆ p.settings.includes →
      p.settings.excludes ⊆ other.settings.excludes → others ⊆ paths := by
    intro others u done fewer more q mem
    exact (discovered.mem_iff q).mpr
      ((((discovered_of_outcome tree done).mem_iff q).mp mem).mono root.symm fewer more)
  refine ⟨fun fewer => ?_, grows, shrinks, fun others u done includes excludes => ?_⟩
  · obtain ⟨others, found'⟩ := exists_sources_mono root fewer found
    exact ⟨others, discover_eq_ok_iff.mpr ⟨rfl, found'⟩⟩
  have : Std.Irrefl fun a b : Path => a.components < b.components := ⟨fun a => List.lt_irrefl _⟩
  refine (discovered_of_outcome tree done).increasing.eq_of_mem_iff discovered.increasing
    fun q => ⟨?_, ?_⟩
  · intro mem
    exact shrinks others u done (fun x => (includes x).mp) (fun x => (excludes x).mpr) mem
  · exact fun mem => grows others u done (fun x => (includes x).mpr) (fun x => (excludes x).mp) mem

/-- On a disk that is a tree the sources of a project are discovered as a set. With acceptable
patterns there is an answer, unless the disk refuses a path as too long, and with room for the paths
there always is. It changes nothing, is strictly increasing, and can be compared with the answer for
other patterns in the same place. -/
theorem discover_sorted_set (p : Project) (w : World) (tree : w.disk.IsTree) :
    ((∀ pattern ∈ p.settings.includes, Glob.Acceptable pattern) →
      (∀ why v, p.discover.outcome w = (.error why, v) →
        ∃ fault, Disk.TooLong fault ∧ why = .disk fault) ∧
      ((∃ there, w.disk.isDirectory p.settings.root = .ok there) →
        (∀ pattern ∈ p.settings.includes, ∀ g, Glob.read pattern = .ok g →
          Glob.HasRoom w.disk g.steps p.settings.root) →
        ∃ paths, p.discover.outcome w = (.ok paths, w))) ∧
    ∀ paths v, p.discover.outcome w = (.ok paths, v) → p.Discovered w v paths ∧
      ∀ other : Project, other.settings.root = p.settings.root → p.Compares w paths other := by
  refine ⟨fun acceptable => ⟨fun why v failed => ?_, fun looked room => ?_⟩,
    fun paths v done => ⟨discovered_of_outcome tree done,
      fun other root => compares_of_outcome tree done root⟩⟩
  · exact sources_failsOnly tree acceptable why (discover_eq_error failed)
  · obtain ⟨paths, found⟩ := exists_sources tree looked acceptable room
    exact ⟨paths, discover_eq_ok_iff.mpr ⟨rfl, found⟩⟩

def smallDisk : Disk :=
  { here := []
    entries := [(["p"], .directory), (["p", "lib"], .directory),
      (["p", "lib", "B.swift"], .file []),
      (["p", "A.swift"], .file []), (["p", "build"], .directory),
      (["p", "build", "C.swift"], .file [])] }

def smallProject (includes excludes : List String) : Project :=
  { tool := fun _ _ => .missing
    settings := { root := ⟨.root, ["p"]⟩, includes := includes, excludes := excludes } }

theorem overlapping_patterns_discovered :
    (∃ paths, (smallProject ["**/*.swift", "lib/*.swift"] []).discover.outcome
      { disk := smallDisk } = (.ok paths, { disk := smallDisk })) ∧
    ∀ others u, (smallProject ["lib/*.swift", "**/*.swift"] []).discover.outcome
        { disk := smallDisk } = (.ok others, u) →
      others = [⟨.root, ["p", "A.swift"]⟩, ⟨.root, ["p", "lib", "B.swift"]⟩] := by
  have tree : smallDisk.IsTree := ⟨by decide, by decide, by decide⟩
  obtain ⟨returns, listing⟩ :=
    discover_sorted_set (smallProject ["**/*.swift", "lib/*.swift"] []) { disk := smallDisk } tree
  have deep : Glob.read "**/*.swift" =
      .ok ⟨[.deep, .wild (.run :: ".swift".toList.map .char)], false⟩ := rfl
  have flat : Glob.read "lib/*.swift" =
      .ok ⟨[.named "lib", .wild (.run :: ".swift".toList.map .char)], false⟩ := rfl
  refine ⟨(returns fun pattern mem => ?_).2 ⟨true, rfl⟩ fun pattern mem g given => ?_,
    fun others u discovered => ?_⟩
  · rcases List.mem_cons.mp mem with rfl | mem
    · exact Glob.exists_read_iff.mp ⟨_, deep⟩
    · rw [List.mem_singleton.mp mem]
      exact Glob.exists_read_iff.mp ⟨_, flat⟩
  · rcases List.mem_cons.mp mem with rfl | mem
    · cases deep.symm.trans given
      exact ⟨by decide, by simp⟩
    · rw [List.mem_singleton.mp mem] at given
      cases flat.symm.trans given
      refine ⟨by decide, fun part step => ?_⟩
      have part_eq : part = "lib" := by simpa using step
      rw [part_eq]
      decide
  · have found := listing _ _ (discover_eq_ok_iff.mpr ⟨rfl, rfl⟩)
    have compares := found.2 (smallProject ["lib/*.swift", "**/*.swift"] []) rfl
    exact compares.same _ _ discovered (fun pattern => by simp [smallProject, or_comm])
      fun pattern => Iff.rfl

end Project

end ModuleStubs
