import ModuleStubs.Extraction.Definition
import ModuleStubs.Proofs.Tool.Repetition

/-! All work on the nodes of a file is done by notes, calls and lookups. -/

namespace ModuleStubs

namespace Toolbox

variable {α : Type} {box : Toolbox}

theorem Work.after {e : Event} (silent : e.call? = none) {f : Unit → Action α}
    (next : box.Work (f ())) : box.Work (Action.happen e >>= f) :=
  .bind (.note e silent) fun _ => next

theorem starts_tree (path : Path) : box.Starts path (box.tree path) := by
  refine .bind .ask fun said => ?_
  cases said with
  | error why => exact .pure _
  | ok value =>
    cases found : Node.ofJson? value with
    | some node =>
      simp only [found]
      exact .pure _
    | none =>
      simp only [found]
      exact .pure _

theorem work_resolve {path : Path} (proper : path.Proper) (offset : Option Int) :
    box.Work (box.resolve path offset) := by
  cases offset with
  | none => exact .pure _
  | some offset => exact .lookup path proper offset

end Toolbox

namespace Extractor

variable {x : Extractor} (proper : x.source.path.Proper)
include proper

theorem work_settleBody (label : String) (body : Body) : x.box.Work (x.settleBody label body) := by
  cases body with
  | absent => exact .after rfl (.pure _)
  | closure signature => exact .pure _
  | shapeless offset => exact .after rfl (.pure _)
  | elsewhere offset =>
    refine .bind (Toolbox.work_resolve proper offset) fun result => ?_
    cases result with
    | ok signature => exact .pure _
    | error why => exact .after rfl (.pure _)

theorem work_settle (label : String) (drafts : List Draft) :
    x.box.Work (x.settle label drafts) := by
  induction drafts with
  | nil => exact .pure _
  | cons draft drafts ih =>
    cases draft with
    | nameless offset => exact .after rfl ih
    | declared name body =>
      exact .bind (work_settleBody proper label body) fun _ => .bind ih fun _ => .pure _

omit proper in
theorem work_entries (label : String) (nodes : List Node) :
    x.box.Work (x.entries label nodes) := by
  induction nodes with
  | nil => exact .pure _
  | cons n ns ih =>
    unfold entries
    split
    · exact .bind ih fun _ => .pure _
    · exact .after rfl ih

omit proper in
theorem work_moduleName (root : List Node) (defaultName : Option String) :
    x.box.Work (x.moduleName root defaultName) := by
  unfold moduleName
  split
  · exact .pure _
  · exact .after rfl (.pure _)

theorem work_surface (root : List Node) (defaultName : Option String) :
    x.box.Work (x.surface root defaultName) := by
  refine .after rfl ?_
  refine .bind (work_moduleName root defaultName) fun _ => ?_
  refine .bind (work_settle proper _ _) fun _ => ?_
  refine .bind (work_settle proper _ _) fun _ => ?_
  refine .bind (work_entries _ _) fun _ => ?_
  refine .bind (work_settle proper _ _) fun _ => ?_
  refine .bind (work_settle proper _ _) fun _ => ?_
  exact .bind (work_settle proper _ _) fun _ => .pure _

theorem work_chained (root : List Node) (defaultName : Option String) {chain : ViewChain}
    (views : x.box.Work (x.viewOf chain)) : x.box.Work (x.chained root defaultName chain) := by
  unfold chained
  exact .bind (work_surface proper root defaultName) fun _ => .bind views fun _ => .pure _

theorem work_viewOf (chain : ViewChain) : x.box.Work (x.viewOf chain) := by
  induction chain with
  | none =>
    rw [viewOf]
    exact .pure _
  | broken why =>
    rw [viewOf]
    exact .after rfl (.pure _)
  | nested root name more ih =>
    rw [viewOf]
    exact .bind (work_chained proper root name ih) fun _ => .pure _

theorem work_extract (root : List Node) (defaultName : Option String) :
    x.box.Work (x.extract root defaultName) :=
  work_chained proper root defaultName (work_viewOf proper _)

end Extractor

theorem work_findModuleRoot (box : Toolbox) (tree : Node) : box.Work (findModuleRoot tree) := by
  have warned : ∀ texts : List Wording,
      box.Work (texts.forM fun text => Action.warn text none) := by
    intro texts
    induction texts with
    | nil => exact .pure _
    | cons text texts ih => exact .after rfl ih
  exact .bind (warned _) fun _ => .pure _

end ModuleStubs
