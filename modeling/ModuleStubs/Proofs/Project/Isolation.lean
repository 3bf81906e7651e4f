import ModuleStubs.Proofs.Json.Numeral
import ModuleStubs.Proofs.Project.FileWork

/-! Files do not get in each other's way: in a run over many each gives what it gives in a
run of its own, though diagnostics and kept signatures are shared. -/

namespace ModuleStubs

namespace Project

variable {p : Project} {w : World}

section

variable (p : Project) (d : Disk)

def glance (path : Path) : Except Abort (Option Definition) × Session :=
  (p.fileWork d path).outcome {}

def share (path : Path) : Collection :=
  match (p.glance d path).1 with
  | .ok found => entry path found
  | .error _ => ⟨[], []⟩

def Settles (path : Path) : Prop := ∃ found, (p.glance d path).1 = .ok found

structure Follows (paths : List Path) (s t : Session) : Prop where
  diagnostics : t.diagnostics =
    s.diagnostics ++ paths.flatMap fun path => (p.glance d path).2.diagnostics
  calls : p.settings.tool.cacheLookups = false →
    t.calls = s.calls ++ paths.flatMap fun path => (p.glance d path).2.calls
  memo : p.box.Sound t.memo

end

variable {d : Disk} (stateless : p.tool.Stateless)
include stateless

/-- From any session the work on files gives the shares of the files, one after another. -/
theorem outcome_filesWork {paths : List Path} (proper : ∀ path ∈ paths, path.Proper)
    (settles : ∀ path ∈ paths, p.Settles d path) {s : Session} (sound : p.box.Sound s.memo) :
    ∃ t, (p.filesWork d paths).outcome s =
        (.ok ⟨paths.flatMap fun path => (p.share d path).modules,
          paths.flatMap fun path => (p.share d path).skipped⟩, t) ∧ p.Follows d paths s t := by
  induction paths generalizing s with
  | nil =>
    refine ⟨s, rfl, ?_, fun _ => ?_, sound⟩
    · exact (List.append_nil _).symm
    · exact (List.append_nil _).symm
  | cons path paths ih =>
    obtain ⟨first, others⟩ := List.forall_mem_cons.mp proper
    obtain ⟨⟨found, settled⟩, rest⟩ := List.forall_mem_cons.mp settles
    -- The memo that the first file leaves is sound, which is all the others rely on.
    have repeats := (work_fileWork p d first).repeats stateless s sound
    cases reached : (p.fileWork d path).outcome s with
    | mk result middle =>
      obtain ⟨result_eq, diagnostics, calls, memo⟩ := repeats
      rw [reached] at result_eq diagnostics calls memo
      have same : result = .ok found := result_eq.trans settled
      subst same
      obtain ⟨t, done, later⟩ := ih others rest memo
      refine ⟨t, ?_, ?_, fun direct => ?_, later.memo⟩
      · have own : p.share d path = entry path found := by rw [share, settled]
        rw [filesWork, Action.outcome_bind_of_ok reached, outcome_gather path done, ← own]
        rfl
      · rw [later.diagnostics, diagnostics, List.flatMap_cons, List.append_assoc]
        rfl
      · rw [later.calls direct, calls direct, List.flatMap_cons, List.append_assoc]
        rfl

theorem settles_of_filesWork {paths : List Path} (proper : ∀ path ∈ paths, path.Proper)
    {s : Session} (sound : p.box.Sound s.memo) {c : Collection}
    (done : ((p.filesWork d paths).outcome s).1 = .ok c) :
    ∀ path ∈ paths, p.Settles d path := by
  induction paths generalizing s c with
  | nil => exact nofun
  | cons path paths ih =>
    obtain ⟨first, others⟩ := List.forall_mem_cons.mp proper
    obtain ⟨found, middle, reached, done⟩ := Action.outcome_bind_eq_ok.mp (Prod.ext done rfl)
    have repeats := (work_fileWork p d first).repeats stateless s sound
    have memo := repeats.memo
    have settled := repeats.result
    rw [reached] at memo settled
    refine List.forall_mem_cons.mpr ⟨⟨found, settled.symm⟩, ?_⟩
    cases found with
    | some definition =>
      obtain ⟨rest, u, later, -⟩ := Action.outcome_bind_eq_ok.mp done
      exact ih others memo (congrArg Prod.fst later)
    | none =>
      obtain ⟨rest, u, later, -⟩ := Action.outcome_bind_eq_ok.mp done
      exact ih others memo (congrArg Prod.fst later)

omit stateless

variable (p d) in
def alone (path : Path) : Except Abort Collection × World :=
  (p.collectFiles [path]).outcome { disk := d }

variable (p d) in
def collectedAlone (path : Path) : Collection :=
  match (p.alone d path).1 with
  | .ok c => c
  | .error _ => ⟨[], []⟩

structure Concatenates (p : Project) (d : Disk) (paths : List Path) (c : Collection)
    (s : Session) : Prop where
  modules : c.modules = paths.flatMap fun path => (p.collectedAlone d path).modules
  skipped : c.skipped = paths.flatMap fun path => (p.collectedAlone d path).skipped
  diagnostics :
    s.diagnostics = paths.flatMap fun path => (p.alone d path).2.session.diagnostics
  calls : p.settings.tool.cacheLookups = false →
    s.calls = paths.flatMap fun path => (p.alone d path).2.session.calls

/-- A run over one file gives one module or skips the file. A file that can be read is
first asked for its tree; no call is made for another. -/
structure GivesOne (p : Project) (d : Disk) (path : Path) : Prop where
  entry : (∃ m, (p.alone d path).1 = .ok ⟨[m], []⟩) ∨ (p.alone d path).1 = .ok ⟨[], [path]⟩
  readable : ∀ content, d.readText path = .ok content →
    ∃ more, (p.alone d path).2.session.calls = .tree path :: more
  unreadable : ∀ why, d.readText path = .error why → (p.alone d path).2.session.calls = []

section

variable (stateless : p.tool.Stateless)
include stateless

theorem outcome_collectFiles_of_settles {paths : List Path} (proper : ∀ path ∈ paths, path.Proper)
    (clean : ∀ path ∈ paths, Disk.hasNull path = false) (quiet : Channel.log w.channel = none)
    (sound : p.box.Sound w.session.memo) (settles : ∀ path ∈ paths, p.Settles w.disk path) :
    ∃ t, (p.collectFiles paths).outcome w =
        (.ok ⟨paths.flatMap fun path => (p.share w.disk path).modules,
          paths.flatMap fun path => (p.share w.disk path).skipped⟩, { w with session := t }) ∧
      p.Follows w.disk paths w.session t := by
  obtain ⟨t, done, follows⟩ := outcome_filesWork stateless proper settles
    (s := w.session.add (.logged ⟨stage, .debug, s!"Discovered {paths.length} Swift files"⟩)) sound
  refine ⟨t, ?_, ?_, fun direct => ?_, follows.memo⟩
  · rw [outcome_collectFiles quiet clean, within, collectWork,
      Action.outcome_bind_of_ok (Action.outcome_log _ _ _ _), done]
  · rw [follows.diagnostics, Session.diagnostics_add]
    exact congrArg (· ++ _) (List.append_nil _)
  · rw [follows.calls direct, Session.calls_add]
    exact congrArg (· ++ _) (List.append_nil _)

theorem settles_of_collectFiles {paths : List Path} (proper : ∀ path ∈ paths, path.Proper)
    (clean : ∀ path ∈ paths, Disk.hasNull path = false) (quiet : Channel.log w.channel = none)
    (sound : p.box.Sound w.session.memo) {c : Collection}
    (done : ((p.collectFiles paths).outcome w).1 = .ok c) :
    ∀ path ∈ paths, p.Settles w.disk path := by
  rw [outcome_collectFiles quiet clean, within, collectWork,
    Action.outcome_bind_of_ok (Action.outcome_log _ _ _ _)] at done
  exact settles_of_filesWork stateless proper
    (s := w.session.add (.logged ⟨stage, .debug, s!"Discovered {paths.length} Swift files"⟩))
    sound done

theorem alone_of_settles {path : Path} (proper : path.Proper) (clean : Disk.hasNull path = false)
    (settles : p.Settles d path) :
    (p.alone d path).1 = .ok (p.share d path) ∧
      (p.alone d path).2.session.diagnostics = (p.glance d path).2.diagnostics ∧
      (p.settings.tool.cacheLookups = false →
        (p.alone d path).2.session.calls = (p.glance d path).2.calls) := by
  obtain ⟨t, done, follows⟩ := outcome_collectFiles_of_settles (w := { disk := d }) stateless
    (List.forall_mem_singleton.mpr proper) (List.forall_mem_singleton.mpr clean) rfl
    (Toolbox.sound_nil p.box) (List.forall_mem_singleton.mpr settles)
  rw [alone, done, List.flatMap_singleton, List.flatMap_singleton]
  refine ⟨rfl, follows.diagnostics.trans ?_, fun direct => (follows.calls direct).trans ?_⟩
  · rw [List.flatMap_singleton]
    rfl
  · rw [List.flatMap_singleton]
    rfl

omit stateless in
theorem alone_eq (p : Project) (d : Disk) {path : Path} (clean : Disk.hasNull path = false) :
    p.alone d path = within (p.collectWork d [path]) { disk := d } :=
  outcome_collectFiles (w := { disk := d }) rfl (List.forall_mem_singleton.mpr clean)

/-- The work on a file is ended exactly by a reply that ends work. -/
theorem settles_iff_heard {path : Path} (proper : path.Proper)
    (clean : Disk.hasNull path = false) :
    p.Settles d path ↔ ∀ call ∈ (p.alone d path).2.session.calls, p.box.Heard call := by
  have work := work_collectWork p d (List.forall_mem_singleton.mpr proper)
  obtain ⟨asked, calls, ends⟩ := work.answers stateless {}
  have same : (p.alone d path).2.session.calls = asked := by
    rw [alone_eq p d clean]
    exact calls
  rw [same, ← ends]
  constructor
  · intro settles
    have given := (alone_of_settles stateless proper clean settles).1
    rw [alone_eq p d clean] at given
    exact ⟨_, given⟩
  · rintro ⟨c, done⟩
    refine settles_of_collectFiles (w := { disk := d }) stateless
      (List.forall_mem_singleton.mpr proper) (List.forall_mem_singleton.mpr clean) rfl
      (Toolbox.sound_nil p.box) (c := c) ?_ path List.mem_cons_self
    rw [outcome_collectFiles rfl (List.forall_mem_singleton.mpr clean)]
    exact done

theorem givesOne_of_settles {path : Path} (proper : path.Proper)
    (clean : Disk.hasNull path = false) (settles : p.Settles d path) : p.GivesOne d path := by
  constructor
  · obtain ⟨given, -, -⟩ := alone_of_settles stateless proper clean settles
    obtain ⟨found, settled⟩ := settles
    rw [given, share, settled]
    cases found with
    | some definition => exact .inl ⟨definition, rfl⟩
    | none => exact .inr rfl
  · intro content readable
    have starts : p.box.Starts path (p.collectWork d [path]) :=
      .after rfl (.bind (starts_fileWork p proper readable) fun found =>
        work_gather path (.pure _) found)
    rw [alone_eq p d clean]
    exact starts.calls stateless {}
  · intro why unreadable
    rw [alone_eq p d clean, within, collectWork, filesWork, fileWork_of_error p unreadable]
    rfl

/-- Where the work on every file has a result, so has the run over all of them, and it puts
together what the files give alone. -/
theorem collect_of_settles {paths : List Path} (proper : ∀ path ∈ paths, path.Proper)
    (clean : ∀ path ∈ paths, Disk.hasNull path = false) (quiet : Channel.log w.channel = none)
    (sound : p.box.Sound w.session.memo) (settles : ∀ path ∈ paths, p.Settles w.disk path) :
    ∃ t, (p.collectFiles paths).outcome w =
        (.ok ⟨paths.flatMap fun path => (p.collectedAlone w.disk path).modules,
          paths.flatMap fun path => (p.collectedAlone w.disk path).skipped⟩,
            { w with session := t }) ∧
      t.diagnostics = w.session.diagnostics ++
        (paths.flatMap fun path => (p.alone w.disk path).2.session.diagnostics) ∧
      (p.settings.tool.cacheLookups = false → t.calls = w.session.calls ++
        paths.flatMap fun path => (p.alone w.disk path).2.session.calls) ∧
      p.box.Sound t.memo := by
  obtain ⟨t, done, follows⟩ :=
    outcome_collectFiles_of_settles stateless proper clean quiet sound settles
  have each := fun path mem =>
    alone_of_settles stateless (proper path mem) (clean path mem) (settles path mem)
  have collected : ∀ path ∈ paths, p.share w.disk path = p.collectedAlone w.disk path := by
    intro path mem
    rw [collectedAlone, (each path mem).1]
  refine ⟨t, ?_, ?_, fun direct => ?_, follows.memo⟩
  · rw [done, List.flatMap_congr fun path mem => congrArg Collection.modules (collected path mem),
      List.flatMap_congr fun path mem => congrArg Collection.skipped (collected path mem)]
  · rw [follows.diagnostics, List.flatMap_congr fun path mem => (each path mem).2.1.symm]
  · rw [follows.calls direct, List.flatMap_congr fun path mem => ((each path mem).2.2 direct).symm]

end

structure Resumes (p : Project) (d : Disk) (xs ys : List Path) (c c₁ c₂ : Collection)
    (v v₁ v₂ : World) : Prop where
  first : (p.collectFiles xs).outcome { disk := d } = (.ok c₁, v₁)
  rest : (p.collectFiles ys).outcome v₁ = (.ok c₂, v₂)
  modules : c.modules = c₁.modules ++ c₂.modules
  skipped : c.skipped = c₁.skipped ++ c₂.skipped
  diagnostics : v.session.diagnostics = v₂.session.diagnostics
  calls : p.settings.tool.cacheLookups = false → v.session.calls = v₂.session.calls

structure Apart (p : Project) (d : Disk) (paths : List Path) (c : Collection) (v : World) :
    Prop where
  joined : p.Concatenates d paths c v.session
  each : ∀ path ∈ paths, p.GivesOne d path
  divided : ∀ xs ys, paths = xs ++ ys →
    ∃ c₁ c₂ v₁ v₂, p.Resumes d xs ys c c₁ c₂ v v₁ v₂

/-- A run over files with a tool that has no memory returns exactly if no reply that the runs over
single files get ends work. Then it puts together, in order, what those runs give, each of which
gives one module or skips its file, also if signatures are kept from file to file; and it goes as a
run over the first files followed by one over the rest. -/
theorem collectFiles_isolated (p : Project) (d : Disk) (paths : List Path)
    (stateless : p.tool.Stateless) (proper : ∀ path ∈ paths, path.Proper)
    (clean : ∀ path ∈ paths, Disk.hasNull path = false) :
    ((∃ c v, (p.collectFiles paths).outcome { disk := d } = (.ok c, v)) ↔
      ∀ path ∈ paths, ∀ call ∈ (p.alone d path).2.session.calls,
        ¬ (p.tool [] call).EndsWork call) ∧
    ∀ c v, (p.collectFiles paths).outcome { disk := d } = (.ok c, v) → p.Apart d paths c v := by
  have heard := fun path mem =>
    settles_iff_heard (d := d) stateless (proper path mem) (clean path mem)
  have sound : p.box.Sound ({ disk := d } : World).session.memo := Toolbox.sound_nil p.box
  constructor
  -- A file whose run alone is ended ends the whole run, and only such a file does.
  · constructor
    · rintro ⟨c, v, done⟩ path mem
      have settles := settles_of_collectFiles stateless proper clean rfl sound
        (congrArg Prod.fst done)
      exact (heard path mem).mp (settles path mem)
    · intro all
      have settles := fun path mem => (heard path mem).mpr (all path mem)
      obtain ⟨t, done, -⟩ := collect_of_settles (w := { disk := d }) stateless proper clean rfl
        sound settles
      exact ⟨_, _, done⟩
  · intro c v done
    have settles := settles_of_collectFiles stateless proper clean rfl sound
      (congrArg Prod.fst done)
    obtain ⟨t, whole, diagnostics, calls, -⟩ := collect_of_settles (w := { disk := d }) stateless
      proper clean rfl sound settles
    rw [whole] at done
    cases done
    refine ⟨⟨rfl, rfl, diagnostics, calls⟩, ?_, ?_⟩
    · exact fun path mem =>
        givesOne_of_settles stateless (proper path mem) (clean path mem) (settles path mem)
    · rintro xs ys rfl
      obtain ⟨properX, properY⟩ := List.forall_mem_append.mp proper
      obtain ⟨cleanX, cleanY⟩ := List.forall_mem_append.mp clean
      obtain ⟨settlesX, settlesY⟩ := List.forall_mem_append.mp settles
      obtain ⟨t₁, done₁, diagnostics₁, calls₁, memo₁⟩ := collect_of_settles (w := { disk := d })
        stateless properX cleanX rfl sound settlesX
      obtain ⟨t₂, done₂, diagnostics₂, calls₂, -⟩ :=
        collect_of_settles (w := { disk := d, session := t₁ }) stateless properY cleanY rfl
          memo₁ settlesY
      refine ⟨_, _, _, _, done₁, done₂, List.flatMap_append, List.flatMap_append, ?_, ?_⟩
      · rw [diagnostics, diagnostics₂, diagnostics₁, List.flatMap_append, List.append_assoc]
      · intro direct
        rw [calls direct, calls₂ direct, calls₁ direct, List.flatMap_append, List.append_assoc]

def firstFile : Path := ⟨.relative, ["A.swift"]⟩

def secondFile : Path := ⟨.relative, ["B.swift"]⟩

def treeText : String :=
  "\x7b\"key.typename\":\"ModuleDefinition\",\"key.substructure\":[\x7b\x7d]\x7d"

def twoFiles (first second : Reply) : Project :=
  { settings := { root := ⟨.root, []⟩, tool := { cacheLookups := true } }
    tool := fun _ call =>
      if call = .tree firstFile then first
      else if call = .tree secondFile then second else .missing }

def twoFilesDisk : Disk :=
  { entries := [(["A.swift"], .file []), (["B.swift"], .file [])], here := [] }

theorem proper_twoFiles : ∀ path ∈ [firstFile, secondFile], path.Proper := by
  unfold Path.Proper
  decide

theorem read_treeText : ∃ value, Json.read treeText = .ok value := by
  have readable : (Json.read treeText).toOption.isSome = true := by decide +kernel
  obtain ⟨value, read⟩ := Option.isSome_iff_exists.mp readable
  exact ⟨value, eq_ok_of_toOption read⟩

theorem second_file_skipped :
    ∃ c v, ((twoFiles (.output (some treeText)) .missing).collectFiles
        [firstFile, secondFile]).outcome { disk := twoFilesDisk } = (.ok c, v) ∧
      (twoFiles (.output (some treeText)) .missing).Concatenates twoFilesDisk
        [firstFile, secondFile] c v.session ∧
      ((twoFiles (.output (some treeText)) .missing).alone twoFilesDisk secondFile).1.toOption.map
        Collection.skipped = some [secondFile] := by
  have heard : ∀ call,
      ¬ ((twoFiles (.output (some treeText)) .missing).tool [] call).EndsWork call := by
    intro call
    obtain ⟨value, read⟩ := read_treeText
    change ¬ (if call = .tree firstFile then Reply.output (some treeText)
      else if call = .tree secondFile then .missing else .missing).EndsWork call
    split_ifs with first
    · exact first ▸ Reply.not_endsWork_of_read read firstFile
    · exact Reply.not_endsWork_missing call
    · exact Reply.not_endsWork_missing call
  obtain ⟨returns, shape⟩ := collectFiles_isolated (twoFiles (.output (some treeText)) .missing)
    twoFilesDisk [firstFile, secondFile] (fun _ _ _ => rfl) proper_twoFiles (by decide)
  obtain ⟨c, v, done⟩ := returns.mpr fun _ _ call _ => heard call
  exact ⟨c, v, done, (shape c v done).joined, by decide +kernel⟩

theorem no_run_of_unread {reply : Reply} (unread : reply.Unread) :
    ¬ ∃ c v, ((twoFiles .missing reply).collectFiles [firstFile, secondFile]).outcome
      { disk := twoFilesDisk } = (.ok c, v) := by
  rintro ⟨c, v, done⟩
  have stateless : (twoFiles .missing reply).tool.Stateless := fun _ _ _ => rfl
  have settles := settles_of_collectFiles stateless proper_twoFiles (by decide) rfl
    (Toolbox.sound_nil _) (congrArg Prod.fst done) secondFile (by decide)
  have proper := proper_twoFiles secondFile (by decide)
  have heard := (settles_iff_heard stateless proper (by decide)).mp settles
  have readable : twoFilesDisk.readText secondFile = .ok "" := eq_ok_of_toOption (by decide +kernel)
  have given := givesOne_of_settles stateless proper (by decide) settles
  obtain ⟨more, calls⟩ := given.readable "" readable
  exact heard (.tree secondFile) (calls ▸ List.mem_cons_self) unread

def longNumberText : String := String.ofList (List.replicate (Text.Numeral.maxDigits + 1) '9')

/-- A file about which the tool prints too long a number ends the run over both files, and
what the run over the other file gives is lost. -/
theorem long_number_ends_run :
    ((twoFiles .missing (.output (some longNumberText))).alone twoFilesDisk
        firstFile).1.toOption.map Collection.skipped = some [firstFile] ∧
      ¬ ∃ c v, ((twoFiles .missing (.output (some longNumberText))).collectFiles
        [firstFile, secondFile]).outcome { disk := twoFilesDisk } = (.ok c, v) := by
  refine ⟨by decide +kernel, ?_⟩
  exact no_run_of_unread (.number (Json.read_of_long (Nat.lt_succ_self _)))

end Project

end ModuleStubs
