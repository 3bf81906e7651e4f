import ModuleStubs.Proofs.Extraction.Account
import ModuleStubs.Proofs.Project.Isolation
import ModuleStubs.Proofs.Run.Account

/-! What failures do to a run over files. A call that fails leaves one error and costs one file or
one signature; the run itself is ended by replies that end work, and by nothing else. -/

namespace ModuleStubs

namespace Project

variable (p : Project)

def unreadNote (path : Path) (why : TextFault) : Diagnostic :=
  ⟨.error, s!"Could not read source: {why.message}", some path⟩

def treelessNote (path : Path) (why : ToolFault) : Diagnostic :=
  ⟨.error, why.message p.settings.tool, some path⟩

def malformedNote : Diagnostic := ⟨.warning, malformedText, none⟩

inductive RootTold (before : List Call) (path : Path) : Option (List Node) → Tale → Prop
  | treeless {why : ToolFault}
    (given : p.box.treeResult path (p.tool before (.tree path)) = .ok (.error why)) :
    RootTold before path none ⟨[.tree path], [p.treelessNote path why]⟩
  | searched {tree : Node}
    (given : p.box.treeResult path (p.tool before (.tree path)) = .ok (.ok tree)) :
    RootTold before path tree.searchRoot.root
      ⟨[.tree path], List.replicate tree.searchRoot.malformed malformedNote⟩

inductive FileTold (d : Disk) (before : List Call) (path : Path) : Option Definition → Tale → Prop
  | unread {why : TextFault} (failed : d.readText path = .error why) :
    FileTold d before path none ⟨[], [unreadNote path why]⟩
  | rootless {content : String} {tale : Tale} (read : d.readText path = .ok content)
    (root : p.RootTold before path none tale) : FileTold d before path none tale
  | found {content : String} {root : List Node} {own : Tale} {m : Definition} {tale : Tale}
    (read : d.readText path = .ok content) (marked : p.RootTold before path (some root) own)
    (told : Extractor.ModuleTold ⟨p.box, ⟨path, content⟩⟩ root none
      (ViewChain.ofRoot ⟨path, content⟩ root) (before ++ own.calls) m tale) :
    FileTold d before path (some m) (own ++ tale)

/-- What files give and tell one after another, whatever happened to those before. Meanwhile
nothing but the log file changes. -/
inductive FilesTold (log : Option Location) :
    Disk → List Call → List Path → Collection → Tale → Prop
  | nil {d : Disk} {before : List Call} : FilesTold log d before [] ⟨[], []⟩ {}
  | cons {d e : Disk} {before : List Call} {path : Path} {found : Option Definition} {own : Tale}
    {paths : List Path} {c : Collection} {tale : Tale} (same : Disk.SameBut log d e)
    (first : p.FileTold e before path found own)
    (rest : FilesTold log e (before ++ own.calls) paths c tale) :
    FilesTold log d before (path :: paths)
      ⟨(entry path found).modules ++ c.modules, (entry path found).skipped ++ c.skipped⟩
      (own ++ tale)

theorem accounts_findModuleRoot (box : Toolbox) (s : Session) (tree : Node) :
    box.Accounts (findModuleRoot tree) s fun root tale =>
      root = tree.searchRoot.root ∧
      tale = ⟨[], List.replicate tree.searchRoot.malformed malformedNote⟩ := by
  have warned : ∀ n s, box.Accounts ((List.replicate n malformedText).forM fun text =>
      Action.warn text none) s fun _ tale => tale = ⟨[], List.replicate n malformedNote⟩ := by
    intro n
    induction n with
    | zero => exact fun s => Toolbox.accounts_pure rfl
    | succ n ih =>
      refine fun s => Toolbox.accounts_after rfl fun t _ => (ih t).mono ?_
      rintro - tale rfl
      rfl
  refine Toolbox.accounts_bind_pure (warned _ s) ?_
  rintro - told rfl
  exact ⟨rfl, rfl⟩

theorem accounts_moduleRoot (s : Session) (path : Path) :
    p.box.Accounts (p.moduleRoot path) s (p.RootTold s.calls path) := by
  refine Toolbox.accounts_bind (Toolbox.accounts_tree p.box s path) ?_
  rintro tree told t - ⟨given, rfl⟩
  cases tree with
  | error why => exact Toolbox.accounts_last rfl (.treeless given)
  | ok tree =>
    refine Toolbox.accounts_bind (accounts_findModuleRoot p.box t tree) ?_
    rintro root searched u - ⟨rfl, rfl⟩
    have told := RootTold.searched given
    -- Without a root there is one more record, which is not told.
    cases found : tree.searchRoot.root with
    | none =>
      rw [found] at told
      refine Toolbox.accounts_last rfl ?_
      change p.RootTold s.calls path none (_ ++ (_ ++ {}))
      rw [Tale.append_empty]
      exact told
    | some root =>
      rw [found] at told
      refine Toolbox.accounts_pure ?_
      rw [Tale.append_empty]
      exact told

variable {p}

theorem accounted_loadSource (box : Toolbox) {w : World} {path : Path}
    (clean : Disk.hasNull path = false) :
    Run.Accounted box (loadSource path) w fun source tale =>
      match w.disk.readText path with
      | .ok content => source = some ⟨path, content⟩ ∧ tale = {}
      | .error why => source = none ∧ tale = ⟨[], [unreadNote path why]⟩ := by
  have legible := Disk.readText_ne_null (d := w.disk) clean
  rw [Run.Accounted]
  cases read : w.disk.readText path with
  | ok content =>
    rw [outcome_loadSource read]
    exact ⟨{}, .refl w, trivial, rfl, rfl⟩
  | error why =>
    have fault : why ≠ .disk .nullCharacter := fun same => legible (same ▸ read)
    rw [outcome_loadSource_of_error read fault]
    refine ⟨⟨[], [unreadNote path why]⟩, World.follows_advance ⟨?_, ?_⟩, trivial, rfl, rfl⟩
    · exact Session.calls_add _ _
    · exact Session.diagnostics_add _ _

theorem accounted_extractFile {w : World} {path : Path} (clean : Disk.hasNull path = false) :
    Run.Accounted p.box (p.extractFile path) w (p.FileTold w.disk w.session.calls path) := by
  refine Run.accounted_bind (accounted_loadSource p.box clean) ?_
  intro source loaded v follows told
  cases read : w.disk.readText path with
  | error why =>
    rw [read] at told
    obtain ⟨rfl, rfl⟩ := told
    exact Run.accounted_pure (.unread read)
  | ok content =>
    rw [read] at told
    obtain ⟨rfl, rfl⟩ := told
    -- Reading the source makes no call, so the tool sees the history of the world.
    have calls : v.session.calls = w.session.calls :=
      follows.session.calls.trans (List.append_nil _)
    refine Run.accounted_act ?_
    refine Toolbox.accounts_bind (p.accounts_moduleRoot v.session path) ?_
    intro root own t calls' marked
    rw [calls] at calls' marked
    cases root with
    | none =>
      refine Toolbox.accounts_pure ?_
      rw [Tale.append_empty]
      exact .rootless read marked
    | some root =>
      have extracting := Extractor.accounts_extract ⟨p.box, ⟨path, content⟩⟩ t root none
      refine Toolbox.accounts_bind extracting ?_
      intro m tale u _ extracted
      rw [calls'] at extracted
      refine Toolbox.accounts_last rfl ?_
      change p.FileTold w.disk w.session.calls path (some m) (own ++ (tale ++ {}))
      rw [Tale.append_empty]
      exact .found read marked extracted

theorem FilesTold.before {log : Option Location} {d e : Disk} (same : Disk.SameBut log d e)
    {before : List Call} {paths : List Path} {c : Collection} {tale : Tale}
    (told : p.FilesTold log e before paths c tale) : p.FilesTold log d before paths c tale := by
  cases told with
  | nil => exact .nil
  | cons later first rest => exact .cons (same.trans later) first rest

theorem accounted_collectFrom {w : World} {paths : List Path}
    (clean : ∀ path ∈ paths, Disk.hasNull path = false) :
    Run.Accounted p.box (p.collectFrom paths) w
      (p.FilesTold (Channel.log w.channel) w.disk w.session.calls paths) := by
  induction paths generalizing w with
  | nil => exact Run.accounted_pure .nil
  | cons path paths ih =>
    obtain ⟨first, rest⟩ := List.forall_mem_cons.mp clean
    refine Run.accounted_bind (accounted_extractFile first) ?_
    intro found own v follows told
    -- The rest begins with what the first file has left: its calls, and perhaps a longer log.
    have later := ih (w := v) rest
    rw [follows.channel, follows.session.calls] at later
    cases found with
    | none =>
      refine Run.accounted_bind_pure later fun c tale toldRest => ?_
      exact .cons (.refl _ _) told (toldRest.before follows.disk)
    | some m =>
      refine Run.accounted_bind_pure later fun c tale toldRest => ?_
      exact .cons (.refl _ _) told (toldRest.before follows.disk)

theorem accounted_collectFiles {w : World} {paths : List Path}
    (clean : ∀ path ∈ paths, Disk.hasNull path = false) :
    Run.Accounted p.box (p.collectFiles paths) w
      (p.FilesTold (Channel.log w.channel) w.disk w.session.calls paths) := by
  refine Run.accounted_bind (Run.accounted_act (Toolbox.accounts_note rfl)) ?_
  rintro - told v follows rfl
  refine (accounted_collectFrom clean).mono fun c tale files => ?_
  rw [follows.channel, follows.session.calls, List.append_nil] at files
  exact files.before follows.disk

theorem FileTold.of_fault {d : Disk} {before : List Call} {path : Path}
    {found : Option Definition} {tale : Tale} (told : p.FileTold d before path found tale)
    {content : String} (read : d.readText path = .ok content) {why : ToolFault}
    (given : p.box.treeResult path (p.tool before (.tree path)) = .ok (.error why)) :
    found = none ∧ tale = ⟨[.tree path], [p.treelessNote path why]⟩ := by
  have only : ∀ root own, p.RootTold before path root own →
      root = none ∧ own = ⟨[.tree path], [p.treelessNote path why]⟩ := by
    intro root own marked
    cases marked with
    | treeless other =>
      rw [given] at other
      cases other
      exact ⟨rfl, rfl⟩
    | searched other =>
      rw [given] at other
      cases other
  cases told with
  | unread failed =>
    rw [read] at failed
    cases failed
  | rootless _ marked => exact ⟨rfl, (only _ _ marked).2⟩
  | found _ marked => exact nomatch (only _ _ marked).1

structure Survived (p : Project) (paths : List Path) (w : World) (tale : Tale) : Prop where
  follows : w.Follows ((p.collectFiles paths).outcome w).2 tale
  returns_iff : (∃ c v, (p.collectFiles paths).outcome w = (.ok c, v)) ↔
    ∀ earlier call later, tale.calls = earlier ++ call :: later →
      ¬ (p.tool (w.session.calls ++ earlier) call).EndsWork call
  files : ∀ c v, (p.collectFiles paths).outcome w = (.ok c, v) →
    p.FilesTold (Channel.log w.channel) w.disk w.session.calls paths c tale

/-- Whatever has happened before, a failed structure call skips its file, and a failed request
leaves a declaration without parameters and with an unknown result. Each is told by one error. -/
structure FailsSoftly (p : Project) : Prop where
  tree : ∀ d before path content why found own, d.readText path = .ok content →
    p.box.treeResult path (p.tool before (.tree path)) = .ok (.error why) →
    p.FileTold d before path found own →
      found = none ∧ own = ⟨[.tree path], [p.treelessNote path why]⟩
  request : ∀ (x : Extractor) label before offset why signature own,
    x.box.requestResult x.source.path offset
      (x.box.tool before (.request x.source.path offset)) = .ok (.error why) →
    x.BodyTold label before (.elsewhere (some offset)) signature own → own.calls ≠ [] →
      signature = ⟨[], .unknown, none⟩ ∧
        own = ⟨[.request x.source.path offset], [x.lostNote label (some offset) why]⟩

/-- Collecting from files has a result exactly if no reply to its calls ends work, and no other
failure of the tool ends a run. Then each file gives and tells its own, and every failed call is
told by one error. -/
theorem collectFiles_survives (p : Project) (paths : List Path)
    (clean : ∀ path ∈ paths, Disk.hasNull path = false) (w : World) :
    ∃ tale, p.Survived paths w tale ∧ p.FailsSoftly := by
  obtain ⟨tale, follows, ends⟩ := accounted_collectFiles clean (p := p) (w := w)
  obtain ⟨returns, told⟩ := ends.returns_iff
  rw [Toolbox.heardAll_iff] at returns
  refine ⟨tale, ⟨follows, ⟨?_, ?_⟩, ?_⟩, ⟨?_, ?_⟩⟩
  · rintro ⟨c, v, done⟩
    exact returns.mp ⟨c, congrArg Prod.fst done⟩
  · intro heard
    obtain ⟨c, given⟩ := returns.mpr heard
    exact ⟨c, _, Prod.ext given rfl⟩
  · exact fun c v done => told c (congrArg Prod.fst done)
  · intro d before path content why found own read given file
    exact file.of_fault read given
  · intro x label before offset why signature own given body asked
    exact body.of_fault given asked

theorem both_files_skipped :
    ∃ c v tale, ((twoFiles .timedOut .missing).collectFiles [firstFile, secondFile]).outcome
        { disk := twoFilesDisk } = (.ok c, v) ∧
      (twoFiles .timedOut .missing).FilesTold none twoFilesDisk [] [firstFile, secondFile] c tale ∧
      c.skipped = [firstFile, secondFile] ∧ v.session.diagnostics.length = 2 := by
  have heard : ∀ before call,
      ¬ ((twoFiles .timedOut .missing).tool before call).EndsWork call := by
    intro before call
    change ¬ (if call = .tree firstFile then Reply.timedOut
      else if call = .tree secondFile then .missing else .missing).EndsWork call
    split_ifs
    · exact Reply.not_endsWork_timedOut call
    · exact Reply.not_endsWork_missing call
    · exact Reply.not_endsWork_missing call
  obtain ⟨tale, survived, -⟩ := collectFiles_survives (twoFiles .timedOut .missing)
    [firstFile, secondFile] (by decide) { disk := twoFilesDisk }
  obtain ⟨c, v, done⟩ := survived.returns_iff.mpr fun earlier call _ _ => heard _ call
  have skipped : (((twoFiles .timedOut .missing).collectFiles [firstFile, secondFile]).outcome
      { disk := twoFilesDisk }).1.toOption.map Collection.skipped =
        some [firstFile, secondFile] := by decide +kernel
  have noted : (((twoFiles .timedOut .missing).collectFiles [firstFile, secondFile]).outcome
      { disk := twoFilesDisk }).2.session.diagnostics.length = 2 := by decide +kernel
  rw [done] at skipped noted
  exact ⟨c, v, tale, done, survived.files c v done, Option.some.inj skipped, noted⟩

/-- A tool that may not be run ends the run, though the file is the only one. -/
theorem denied_ends_run :
    ¬ ∃ c v, ((twoFiles .denied .missing).collectFiles [firstFile]).outcome
      { disk := twoFilesDisk } = (.ok c, v) := by
  rintro ⟨c, v, done⟩
  have none : (((twoFiles .denied .missing).collectFiles [firstFile]).outcome
      { disk := twoFilesDisk }).1.toOption.isNone = true := by decide +kernel
  rw [done] at none
  cases none

end Project

end ModuleStubs
