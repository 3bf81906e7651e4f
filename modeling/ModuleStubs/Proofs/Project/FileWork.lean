import Mathlib.Data.List.Basic
import ModuleStubs.Project.Run
import ModuleStubs.Proofs.Extraction.Work
import ModuleStubs.Proofs.Log.Records

/-! The work on the files of a run, one after another. Without a log file it is work of
the session, on a disk that stays as it is. -/

namespace ModuleStubs

namespace Disk

theorem read_ne_null {d : Disk} {p : Path} (clean : hasNull p = false) :
    d.read p ≠ .error .nullCharacter := by
  cases found : d.find p with
  | error why =>
    rw [read, stat, found]
    intro same
    have fault : why = .nullCharacter := Except.error.inj same
    exact find_ne_null clean (fault ▸ found)
  | ok l =>
    rw [read, stat_of_find found]
    intro same
    rcases held : d.item? l with _ | ⟨_ | _⟩ <;> rw [held] at same <;> cases same

theorem readText_ne_null {d : Disk} {p : Path} (clean : hasNull p = false) :
    d.readText p ≠ .error (.disk .nullCharacter) := by
  have legible := read_ne_null (d := d) clean
  rw [readText]
  cases read : d.read p with
  | error why =>
    rintro ⟨⟩
    exact legible read
  | ok bytes =>
    change (do
      let cs ← (Text.Utf8.decode bytes).mapError TextFault.encoding
      Except.ok (String.ofList (Text.unifyNewlines cs))) ≠ _
    cases Text.Utf8.decode bytes <;> exact nofun

end Disk

namespace Project

variable (p : Project) (d : Disk)

def fileWork (path : Path) : Action (Option Definition) :=
  match d.readText path with
  | .error why => do
    Action.error s!"Could not read source: {why.message}" (some path)
    pure none
  | .ok content => do
    match ← p.moduleRoot path with
    | none => pure none
    | some root => do
      let extractor : Extractor := ⟨p.box, ⟨path, content⟩⟩
      let definition ← extractor.extract root none
      Action.log stage .info s!"Found module {definition.name} in {(p.relative path).text}"
      pure (some definition)

def gather (path : Path) (rest : Action Collection) : Option Definition → Action Collection
  | some definition => do
    let rest ← rest
    pure ⟨definition :: rest.modules, rest.skipped⟩
  | none => do
    let rest ← rest
    pure ⟨rest.modules, path :: rest.skipped⟩

def entry (path : Path) : Option Definition → Collection
  | some definition => ⟨[definition], []⟩
  | none => ⟨[], [path]⟩

theorem outcome_gather (path : Path) {rest : Action Collection} {c : Collection} {s t : Session}
    (h : rest.outcome s = (.ok c, t)) (found : Option Definition) :
    (gather path rest found).outcome s =
      (.ok ⟨(entry path found).modules ++ c.modules,
        (entry path found).skipped ++ c.skipped⟩, t) := by
  cases found with
  | some definition =>
    rw [gather, Action.outcome_bind_of_ok h]
    rfl
  | none =>
    rw [gather, Action.outcome_bind_of_ok h]
    rfl

def filesWork : List Path → Action Collection
  | [] => pure ⟨[], []⟩
  | path :: paths => p.fileWork d path >>= gather path (filesWork paths)

def within {α : Type} (a : Action α) (w : World) : Except Abort α × World :=
  ((a.outcome w.session).1, { w with session := (a.outcome w.session).2 })

variable {p} {w : World}

theorem within_bind {α β : Type} {r : Run α} {f : α → Run β} {a : Action α} {g : α → Action β}
    (first : r.outcome w = within a w)
    (next : ∀ x t, (f x).outcome { w with session := t } = within (g x) { w with session := t }) :
    (r >>= f).outcome w = within (a >>= g) w := by
  rw [within] at first
  cases reached : a.outcome w.session with
  | mk result t =>
    rw [reached] at first
    cases result with
    | error why =>
      rw [Run.outcome_bind_of_error first, within, Action.outcome_bind_of_error reached]
    | ok x =>
      rw [Run.outcome_bind_of_ok first, within, Action.outcome_bind_of_ok reached]
      exact next x t

theorem outcome_loadSource_of_error {path : Path} {why : TextFault}
    (unreadable : w.disk.readText path = .error why) (fault : why ≠ .disk .nullCharacter) :
    (loadSource path).outcome w = (.ok none, w.advance (w.session.add (.noted
      ⟨.error, s!"Could not read source: {why.message}", some path⟩))) := by
  rw [loadSource, Run.outcome_bind_of_ok (Run.outcome_disk w), unreadable]
  rcases why with ⟨_ | _⟩ | _
  · rfl
  · exact absurd rfl fault
  · rfl

/-- With or without a log file, extracting from a file is work of the session. -/
theorem extractFile_eq_act {path : Path} (clean : Disk.hasNull path = false) :
    (p.extractFile path).outcome w = (Run.act (p.fileWork w.disk path)).outcome w := by
  have legible := Disk.readText_ne_null (d := w.disk) clean
  cases read : w.disk.readText path with
  | ok content =>
    rw [extractFile, fileWork, read]
    exact Run.outcome_bind_of_ok (outcome_loadSource read)
  | error why =>
    have fault : why ≠ .disk .nullCharacter := fun same => legible (same ▸ read)
    rw [extractFile, Run.outcome_bind_of_ok (outcome_loadSource_of_error read fault), fileWork,
      read]
    rfl

theorem outcome_extractFile (quiet : Channel.log w.channel = none) {path : Path}
    (clean : Disk.hasNull path = false) :
    (p.extractFile path).outcome w = within (p.fileWork w.disk path) w := by
  rw [extractFile_eq_act clean, Run.outcome_act, World.advance_of_no_log quiet, within]

theorem outcome_collectFrom (quiet : Channel.log w.channel = none) {paths : List Path}
    (clean : ∀ path ∈ paths, Disk.hasNull path = false) :
    (p.collectFrom paths).outcome w = within (p.filesWork w.disk paths) w := by
  induction paths generalizing w with
  | nil => rfl
  | cons path paths ih =>
    obtain ⟨first, rest⟩ := List.forall_mem_cons.mp clean
    refine within_bind (outcome_extractFile quiet first) fun found t => ?_
    cases found with
    | some definition => exact within_bind (ih quiet rest) fun _ _ => rfl
    | none => exact within_bind (ih quiet rest) fun _ _ => rfl

theorem starts_moduleRoot (p : Project) (path : Path) :
    p.box.Starts path (p.moduleRoot path) := by
  refine .bind (Toolbox.starts_tree path) fun tree => ?_
  cases tree with
  | error why => exact .after rfl (.pure _)
  | ok tree =>
    refine .bind (work_findModuleRoot p.box tree) fun root => ?_
    cases root with
    | none => exact .after rfl (.pure _)
    | some nodes => exact .pure _

theorem starts_fileWork (p : Project) {d : Disk} {path : Path} (proper : path.Proper)
    {content : String} (readable : d.readText path = .ok content) :
    p.box.Starts path (p.fileWork d path) := by
  rw [fileWork, readable]
  refine .bind (starts_moduleRoot p path) fun root => ?_
  cases root with
  | none => exact .pure _
  | some nodes =>
    have extracting := Extractor.work_extract (x := ⟨p.box, ⟨path, content⟩⟩) proper nodes none
    exact .bind extracting fun _ => .after rfl (.pure _)

theorem fileWork_of_error (p : Project) {d : Disk} {path : Path} {why : TextFault}
    (unreadable : d.readText path = .error why) :
    p.fileWork d path =
      Action.error s!"Could not read source: {why.message}" (some path) >>= fun _ => pure none := by
  rw [fileWork, unreadable]

theorem work_fileWork (p : Project) (d : Disk) {path : Path} (proper : path.Proper) :
    p.box.Work (p.fileWork d path) := by
  cases read : d.readText path with
  | ok content => exact (starts_fileWork p proper read).work
  | error why =>
    rw [fileWork_of_error p read]
    exact .after rfl (.pure _)

theorem work_gather {box : Toolbox} (path : Path) {rest : Action Collection}
    (work : box.Work rest) (found : Option Definition) : box.Work (gather path rest found) := by
  cases found with
  | some definition => exact .bind work fun _ => .pure _
  | none => exact .bind work fun _ => .pure _

theorem work_filesWork (p : Project) (d : Disk) {paths : List Path}
    (proper : ∀ path ∈ paths, path.Proper) : p.box.Work (p.filesWork d paths) := by
  induction paths with
  | nil => exact .pure _
  | cons path paths ih =>
    obtain ⟨first, rest⟩ := List.forall_mem_cons.mp proper
    exact .bind (work_fileWork p d first) fun found => work_gather path (ih rest) found

def collectWork (p : Project) (d : Disk) (paths : List Path) : Action Collection := do
  Action.log stage .debug s!"Discovered {paths.length} Swift files"
  p.filesWork d paths

theorem outcome_collectFiles (quiet : Channel.log w.channel = none) {paths : List Path}
    (clean : ∀ path ∈ paths, Disk.hasNull path = false) :
    (p.collectFiles paths).outcome w = within (p.collectWork w.disk paths) w := by
  refine within_bind ?_ fun _ t =>
    outcome_collectFrom (w := { w with session := t }) quiet clean
  rw [Run.outcome_act, World.advance_of_no_log quiet, within]

theorem work_collectWork (p : Project) (d : Disk) {paths : List Path}
    (proper : ∀ path ∈ paths, path.Proper) : p.box.Work (p.collectWork d paths) :=
  .after rfl (work_filesWork p d proper)

end Project

end ModuleStubs
