import ModuleStubs.Proofs.Extraction.RootSearch
import ModuleStubs.Proofs.Project.Faults

/-! Files without a module. Such a file is not a text, or there is no tree for it, or no module
definition in its tree; these cases exclude each other, and each leaves a trace of its own. -/

namespace ModuleStubs

def Disk.HoldsText (d : Disk) (p : Path) : Prop := ∃ cs, d.read p = .ok (Text.Utf8.encode cs)

theorem Disk.holdsText_iff {d : Disk} {p : Path} :
    d.HoldsText p ↔ ∃ content, d.readText p = .ok content := by
  constructor
  · rintro ⟨cs, read⟩
    refine ⟨String.ofList (Text.unifyNewlines cs), ?_⟩
    rw [readText, read]
    change ((Text.Utf8.decode (Text.Utf8.encode cs)).mapError TextFault.encoding >>= _) = _
    rw [Text.Utf8.decode_encode]
    rfl
  · rintro ⟨content, read⟩
    obtain ⟨bytes, read, rest⟩ := of_bind_eq_ok read
    obtain ⟨cs, decoded, -⟩ := of_bind_eq_ok rest
    rw [mapError_eq_ok_iff] at read decoded
    exact ⟨cs, by rw [read, Text.Utf8.decode_eq_ok_iff.mp decoded]⟩

def Reply.Shows (reply : Reply) (tree : Node) : Prop :=
  ∃ text fields, reply = .output (some text) ∧ Json.read text = .ok (.obj fields) ∧
    Node.ofJson? (.obj fields) = some tree

theorem Reply.Shows.unique {reply : Reply} {tree other : Node} (shows : reply.Shows tree)
    (shows' : reply.Shows other) : tree = other := by
  obtain ⟨text, fields, rfl, read, tree⟩ := shows
  obtain ⟨_, _, same, read', tree'⟩ := shows'
  cases same
  cases read.symm.trans read'
  exact Option.some.inj (tree.symm.trans tree')

theorem Toolbox.treeResult_eq_tree_iff {box : Toolbox} {path : Path} {reply : Reply} {tree : Node} :
    box.treeResult path reply = .ok (.ok tree) ↔ reply.Shows tree := by
  constructor
  · intro given
    cases reply with
    | output said =>
      cases said with
      | none => cases given
      | some text =>
        cases parsed : Json.read text with
        | error why =>
          rw [treeResult, read, parsed] at given
          cases why <;> cases given
        | ok value =>
          rw [treeResult, read, parsed] at given
          cases value with
          | obj fields =>
            refine ⟨text, fields, rfl, parsed, ?_⟩
            simpa [Except.map, Except.bind, Node.ofJson?] using given
          | _ => cases given
    | _ => cases given
  · rintro ⟨text, fields, rfl, parsed, found⟩
    simp [treeResult, read, parsed, Except.map, Except.bind, found]

namespace Extractor

variable {x : Extractor} {label : String} {before : List Call} {tale : Tale}

def Requests (x : Extractor) (tale : Tale) : Prop :=
  ∀ call ∈ tale.calls, ∃ offset, call = .request x.source.path offset

theorem Requests.of_silent (notes : List Diagnostic) : x.Requests ⟨[], notes⟩ :=
  fun _ mem => nomatch mem

theorem Requests.single (offset : Int) (notes : List Diagnostic) :
    x.Requests ⟨[.request x.source.path offset], notes⟩ :=
  fun _ mem => ⟨offset, List.mem_singleton.mp mem⟩

theorem Requests.append {first rest : Tale} (h : x.Requests first) (k : x.Requests rest) :
    x.Requests (first ++ rest) := by
  intro call mem
  rcases List.mem_append.mp mem with mem | mem
  · exact h call mem
  · exact k call mem

theorem BodyTold.requests {body : Body} {signature : Signature}
    (told : x.BodyTold label before body signature tale) : x.Requests tale := by
  cases told with
  | absent => exact .of_silent _
  | closure => exact .of_silent _
  | shapeless => exact .of_silent _
  | placeless => exact .of_silent _
  | found given =>
    cases given with
    | kept => exact .of_silent _
    | asked => exact .single _ _
  | lost => exact .single _ _

theorem DraftsTold.requests {drafts : List Draft} {ds : List Declaration}
    (told : x.DraftsTold label before drafts ds tale) : x.Requests tale := by
  induction told with
  | nil => exact .of_silent _
  | nameless rest ih => exact .append (.of_silent _) ih
  | declared first rest ih => exact .append first.requests ih

theorem SurfaceTold.requests {root : List Node} {name : Option String} {m : Definition}
    {t : GroupTales} (told : x.SurfaceTold root name before m t) : x.Requests t.all := by
  obtain ⟨-, nameTale, functions, asyncFunctions, -, eventsTale, properties, ⟨ds, -, props⟩,
    onCreate, -⟩ := told
  have name : x.Requests t.name := nameTale ▸ .of_silent _
  have events : x.Requests t.events := eventsTale ▸ .of_silent _
  exact name.append (functions.requests.append (asyncFunctions.requests.append
    (events.append (properties.requests.append (props.requests.append onCreate.requests)))))

theorem ChainTold.requests {chain : ViewChain} {view : Option Definition}
    (told : x.ChainTold chain before view tale) : x.Requests tale := by
  induction told with
  | none => exact .of_silent _
  | broken => exact .of_silent _
  | nested own views ih => exact own.requests.append ih

theorem ModuleTold.requests {root : List Node} {name : Option String} {chain : ViewChain}
    {m : Definition} (told : x.ModuleTold root name chain before m tale) : x.Requests tale := by
  obtain ⟨own, t, rest, surface, views, -, rfl⟩ := told
  exact surface.requests.append views.requests

end Extractor

namespace Project

inductive SkipCause where
  /-- The file cannot be read, or its bytes are not an encoded text. -/
  | unread
  /-- The tool does not print an object about the file. -/
  | treeless
  /-- No module definition of its tree has anything below it. -/
  | rootless
  deriving DecidableEq

/-- When there is this cause, the reply of the tool about the file given. -/
def SkipCause.Applies (d : Disk) (path : Path) (reply : Reply) : SkipCause → Prop
  | .unread => ¬ d.HoldsText path
  | .treeless => d.HoldsText path ∧ ¬ ∃ tree, reply.Shows tree
  | .rootless => d.HoldsText path ∧
    ∃ tree, reply.Shows tree ∧ ∀ n ∈ tree.preorder, n.isRoot = false

/-- All that is told of a file that is skipped for this cause: one error without or after the call
for its structure, or a warning for each marker with nothing below it. -/
def SkipCause.Leaves (p : Project) (d : Disk) (path : Path) (reply : Reply) (tale : Tale) :
    SkipCause → Prop
  | .unread => ∃ why, d.readText path = .error why ∧ tale = ⟨[], [unreadNote path why]⟩
  | .treeless => ∃ why, p.box.treeResult path reply = .ok (.error why) ∧
    tale = ⟨[.tree path], [p.treelessNote path why]⟩
  | .rootless => ∃ tree, reply.Shows tree ∧ tale = ⟨[.tree path], malformedWarnings tree.preorder⟩

variable {p : Project} {d : Disk} {path : Path} {reply : Reply} {before : List Call} {tale : Tale}

theorem SkipCause.unique {cause other : SkipCause} (applies : cause.Applies d path reply)
    (applies' : other.Applies d path reply) : cause = other := by
  cases cause with
  | unread =>
    cases other with
    | unread => rfl
    | treeless => exact absurd applies'.1 applies
    | rootless => exact absurd applies'.1 applies
  | treeless =>
    cases other with
    | unread => exact absurd applies.1 applies'
    | treeless => rfl
    | rootless => exact absurd (applies'.2.imp fun _ h => h.1) applies.2
  | rootless =>
    cases other with
    | unread => exact absurd applies.1 applies'
    | treeless => exact absurd (applies.2.imp fun _ h => h.1) applies'.2
    | rootless => rfl

theorem root_eq_none_iff (tree : Node) :
    tree.searchRoot.root = none ↔ ∀ n ∈ tree.preorder, n.isRoot = false := by
  rw [tree.searchRoot_eq_along, RootSearch.along, Option.map_eq_none_iff, List.find?_eq_none]
  simp only [Bool.not_eq_true]

theorem replicate_malformedNote (tree : Node) (rootless : ∀ n ∈ tree.preorder, n.isRoot = false) :
    List.replicate tree.searchRoot.malformed malformedNote = malformedWarnings tree.preorder := by
  have whole : (tree.preorder.takeWhile fun n => !n.isRoot) = tree.preorder :=
    List.takeWhile_eq_self_iff.mpr fun n mem => by simpa using rootless n mem
  rw [malformedWarnings, List.map_const', tree.searchRoot_eq_along, RootSearch.along, whole]
  rfl

theorem RootTold.cause (holds : d.HoldsText path) (told : p.RootTold before path none tale) :
    ∃ cause : SkipCause, cause.Applies d path (p.tool before (.tree path)) ∧
      cause.Leaves p d path (p.tool before (.tree path)) tale := by
  generalize missing : (none : Option (List Node)) = root at told
  cases told with
  | treeless given =>
    refine ⟨.treeless, ⟨holds, ?_⟩, _, given, rfl⟩
    rintro ⟨tree, shows⟩
    cases given.symm.trans (Toolbox.treeResult_eq_tree_iff.mpr shows)
  | @searched tree given =>
    have shows := Toolbox.treeResult_eq_tree_iff.mp given
    have rootless := (root_eq_none_iff tree).mp missing.symm
    refine ⟨.rootless, ⟨holds, tree, shows, rootless⟩, tree, shows, ?_⟩
    rw [replicate_malformedNote tree rootless]

theorem RootTold.not_cause {root : List Node} (holds : d.HoldsText path)
    (told : p.RootTold before path (some root) tale) :
    ∀ cause : SkipCause, ¬ cause.Applies d path (p.tool before (.tree path)) := by
  generalize found : some root = result at told
  cases told with
  | treeless => cases found
  | @searched tree given =>
    have shows := Toolbox.treeResult_eq_tree_iff.mp given
    intro cause applies
    cases cause with
    | unread => exact applies holds
    | treeless => exact applies.2 ⟨tree, shows⟩
    | rootless =>
      obtain ⟨-, other, shows', rootless⟩ := applies
      rw [shows'.unique shows, ← root_eq_none_iff] at rootless
      cases found.trans rootless

theorem RootTold.calls {root : Option (List Node)} (told : p.RootTold before path root tale) :
    tale.calls = [.tree path] := by
  cases told <;> rfl

theorem FileTold.calls {found : Option Definition} (told : p.FileTold d before path found tale)
    (holds : d.HoldsText path) : ∃ more, tale.calls = .tree path :: more := by
  cases told with
  | unread failed =>
    obtain ⟨content, read⟩ := Disk.holdsText_iff.mp holds
    cases failed.symm.trans read
  | rootless _ root => exact ⟨[], root.calls⟩
  | found _ marked _ => exact ⟨_, by rw [Tale.calls_append, marked.calls]; rfl⟩

theorem FileTold.cause (told : p.FileTold d before path none tale) :
    ∃ cause : SkipCause, cause.Applies d path (p.tool before (.tree path)) ∧
      cause.Leaves p d path (p.tool before (.tree path)) tale := by
  cases told with
  | unread failed =>
    refine ⟨.unread, fun holds => ?_, _, failed, rfl⟩
    obtain ⟨content, read⟩ := Disk.holdsText_iff.mp holds
    cases failed.symm.trans read
  | rootless read root => exact root.cause (Disk.holdsText_iff.mpr ⟨_, read⟩)

/-- A module is found where there is no cause to skip the file, with one call for the structure and
then requests only. -/
theorem FileTold.not_cause {m : Definition} (told : p.FileTold d before path (some m) tale) :
    (∀ cause : SkipCause, ¬ cause.Applies d path (p.tool before (.tree path))) ∧
      ∃ requests, tale.calls = .tree path :: requests ∧
        ∀ call ∈ requests, ∃ offset, call = .request path offset := by
  cases told with
  | found read marked extracted =>
    refine ⟨marked.not_cause (Disk.holdsText_iff.mpr ⟨_, read⟩), _, ?_, extracted.requests⟩
    rw [Tale.calls_append, marked.calls]
    rfl

structure Extracts (p : Project) (w : World) (path : Path) (tale : Tale) : Prop where
  follows : w.Follows ((p.extractFile path).outcome w).2 tale
  returns_iff : (∃ found v, (p.extractFile path).outcome w = (.ok found, v)) ↔
    ∀ earlier call later, tale.calls = earlier ++ call :: later →
      ¬ (p.tool (w.session.calls ++ earlier) call).EndsWork call

structure SkipsForCause (p : Project) (w : World) (path : Path) (tale : Tale)
    (found : Option Definition) : Prop where
  none_iff : found = none ↔
    ∃ cause : SkipCause, cause.Applies w.disk path (p.tool w.session.calls (.tree path))
  unique : ∀ cause other : SkipCause,
    cause.Applies w.disk path (p.tool w.session.calls (.tree path)) →
    other.Applies w.disk path (p.tool w.session.calls (.tree path)) → cause = other
  leaves : ∀ cause : SkipCause, cause.Applies w.disk path (p.tool w.session.calls (.tree path)) →
    cause.Leaves p w.disk path (p.tool w.session.calls (.tree path)) tale
  requests : ∀ m, found = some m → ∃ requests, tale.calls = .tree path :: requests ∧
    ∀ call ∈ requests, ∃ offset, call = .request path offset

/-- Extracting from a file has a result exactly if no reply to its calls ends work. There is then no
module exactly if there is a cause to skip the file: it holds no text, or the tool prints no object
about it, or no marker of its tree has anything below it. These exclude each other. Each leaves its
own trace and nothing else, and a module is had with one call for the structure, before all
requests. -/
theorem extractFile_skips_for_cause (p : Project) (w : World) (path : Path)
    (clean : Disk.hasNull path = false) :
    ∃ tale, p.Extracts w path tale ∧ ∀ found v,
      (p.extractFile path).outcome w = (.ok found, v) → p.SkipsForCause w path tale found := by
  obtain ⟨tale, follows, ends⟩ := accounted_extractFile clean (p := p) (w := w)
  obtain ⟨returns, told⟩ := ends.returns_iff
  rw [Toolbox.heardAll_iff] at returns
  refine ⟨tale, ⟨follows, ⟨?_, ?_⟩⟩, fun found v done => ?_⟩
  · rintro ⟨found, v, done⟩
    exact returns.mp ⟨found, congrArg Prod.fst done⟩
  · intro heard
    obtain ⟨found, given⟩ := returns.mpr heard
    exact ⟨found, _, Prod.ext given rfl⟩
  have file := told found (congrArg Prod.fst done)
  cases found with
  | none =>
    obtain ⟨cause, applies, leaves⟩ := file.cause
    refine ⟨iff_of_true rfl ⟨cause, applies⟩, fun _ _ => SkipCause.unique, ?_, nofun⟩
    intro other applies'
    rwa [SkipCause.unique applies' applies]
  | some m =>
    obtain ⟨clear, requested⟩ := file.not_cause
    refine ⟨iff_of_false nofun fun ⟨cause, applies⟩ => clear cause applies,
      fun _ _ => SkipCause.unique, fun cause applies => absurd applies (clear cause), ?_⟩
    exact fun _ _ => requested

def markerText : String := "\x7b\"key.typename\":\"ModuleDefinition\"\x7d"

theorem shows_markerText : ∃ tree, (Reply.output (some markerText)).Shows tree ∧
    ∀ n ∈ tree.preorder, n.isRoot = false := by
  have bare : ((Json.read markerText).toOption.bind Json.fields?).map (fun fields =>
      (Node.ofJson? (.obj fields)).map fun tree => tree.preorder.all (!·.isRoot)) =
        some (some true) := by decide +kernel
  obtain ⟨fields, given, bare⟩ := Option.map_eq_some_iff.mp bare
  obtain ⟨value, given, object⟩ := Option.bind_eq_some_iff.mp given
  obtain ⟨tree, found, bare⟩ := Option.map_eq_some_iff.mp bare
  cases value with
  | obj members =>
    cases object
    refine ⟨tree, ⟨markerText, _, rfl, eq_ok_of_toOption given, found⟩, fun n mem => ?_⟩
    simpa using List.all_eq_true.mp bare n mem
  | _ => cases object

theorem childless_marker_skipped :
    ∃ v tale, ((twoFiles (.output (some markerText)) .missing).extractFile firstFile).outcome
        { disk := twoFilesDisk } = (.ok none, v) ∧
      World.Follows { disk := twoFilesDisk } v tale ∧
      SkipCause.rootless.Applies twoFilesDisk firstFile (.output (some markerText)) ∧
      SkipCause.rootless.Leaves (twoFiles (.output (some markerText)) .missing) twoFilesDisk
        firstFile (.output (some markerText)) tale ∧ v.session.diagnostics = [malformedNote] := by
  have applies : SkipCause.rootless.Applies twoFilesDisk firstFile (.output (some markerText)) :=
    ⟨⟨[], rfl⟩, shows_markerText⟩
  obtain ⟨tale, ⟨follows, returns⟩, skips⟩ := extractFile_skips_for_cause
    (twoFiles (.output (some markerText)) .missing) { disk := twoFilesDisk } firstFile (by decide)
  have heard : ∀ before call,
      ¬ ((twoFiles (.output (some markerText)) .missing).tool before call).EndsWork call := by
    intro before call
    change ¬ (if call = .tree firstFile then Reply.output (some markerText)
      else if call = .tree secondFile then .missing else .missing).EndsWork call
    obtain ⟨tree, ⟨_, fields, same, parsed, -⟩, -⟩ := shows_markerText
    cases same
    split_ifs with first
    · exact first ▸ Reply.not_endsWork_of_read parsed firstFile
    · exact Reply.not_endsWork_missing call
    · exact Reply.not_endsWork_missing call
  obtain ⟨found, v, done⟩ := returns.mpr fun earlier call _ _ => heard _ call
  obtain ⟨none_iff, -, leaves, -⟩ := skips found v done
  cases none_iff.mpr ⟨.rootless, applies⟩
  have noted : ((twoFiles (.output (some markerText)) .missing).extractFile firstFile).outcome
      { disk := twoFilesDisk } |>.2.session.diagnostics = [malformedNote] := by decide +kernel
  rw [done] at follows noted
  exact ⟨v, tale, done, follows, applies, leaves .rootless applies, noted⟩

/-- A file that can be read, and a tool that may be run and prints a number: there is no answer at
all if the number is too long. -/
theorem no_answer_for_long_number :
    twoFilesDisk.HoldsText firstFile ∧
    (∀ before call,
      (twoFiles (.output (some longNumberText)) .missing).tool before call ≠ .denied) ∧
    ¬ ∃ found v, ((twoFiles (.output (some longNumberText)) .missing).extractFile firstFile).outcome
        { disk := twoFilesDisk } = (.ok found, v) := by
  refine ⟨⟨[], rfl⟩, fun before call => ?_, ?_⟩
  · change (if call = .tree firstFile then Reply.output (some longNumberText)
      else if call = .tree secondFile then .missing else .missing) ≠ .denied
    split_ifs <;> exact nofun
  · rintro ⟨found, v, done⟩
    have clean : Disk.hasNull firstFile = false := by decide
    obtain ⟨tale, -, ends⟩ := accounted_extractFile (w := { disk := twoFilesDisk })
      (p := twoFiles (.output (some longNumberText)) .missing) clean
    obtain ⟨returns, told⟩ := ends.returns_iff
    obtain ⟨more, calls⟩ := (told found (congrArg Prod.fst done)).calls ⟨[], rfl⟩
    have heard := returns.mp ⟨found, congrArg Prod.fst done⟩
    rw [calls] at heard
    exact heard.1 (.number (Json.read_of_long (Nat.lt_succ_self _)))

end Project

end ModuleStubs
