import ModuleStubs.Project.Run
import ModuleStubs.Proofs.Extraction.Origin
import ModuleStubs.Proofs.Run.Account

/-! The modules that a run collects have been extracted, each from a tree that the tool has given.
While they are collected nothing is printed, and of the disk only the log file changes. -/

namespace ModuleStubs

structure World.Collects (w v : World) : Prop where
  memo : v.session.memo.Reached
  printed : v.printed = w.printed
  channel : v.channel = w.channel
  disk : Disk.Relogged (Channel.log w.channel) w.disk v.disk

namespace World

theorem Collects.refl {w : World} (reached : w.session.memo.Reached) : w.Collects w :=
  ⟨reached, rfl, rfl, .refl _ w.disk⟩

theorem Collects.trans {w v u : World} (first : w.Collects v) (second : v.Collects u) :
    w.Collects u := by
  have disk := second.disk
  rw [first.channel] at disk
  exact ⟨second.memo, second.printed.trans first.printed, second.channel.trans first.channel,
    first.disk.trans disk⟩

theorem Collects.ready {w v : World} (collects : w.Collects v)
    (ready : Channel.Ready w.channel w.disk) : Channel.Ready v.channel v.disk :=
  collects.channel ▸ ready.relogged collects.disk

end World

namespace Run

variable {α β : Type} {post : α → Prop}

/-- Collecting from a world whose log is open and whose memo lookups have left, with a property of
the result if there is one. -/
def Ensures (r : Run α) (post : α → Prop) : Prop :=
  ∀ w, w.session.memo.Reached → Channel.Ready w.channel w.disk →
    w.Collects (r.outcome w).2 ∧ ∀ x, (r.outcome w).1 = .ok x → post x

theorem ensures_pure {x : α} (h : post x) : Ensures (pure x) post :=
  fun _ reached _ => ⟨.refl reached, fun _ same => Except.ok.inj same ▸ h⟩

theorem ensures_throw (why : Abort) : Ensures (throw why) post :=
  fun _ reached _ => ⟨.refl reached, nofun⟩

theorem ensures_disk : Ensures disk fun _ => True :=
  fun _ reached _ => ⟨.refl reached, fun _ _ => trivial⟩

theorem ensures_act {a : Action α} (h : Action.Ensures Memo.Reached True a post) :
    Ensures (act a) post := by
  intro w reached ready
  obtain ⟨later, ends⟩ := h w.session reached
  rw [outcome_act]
  refine ⟨⟨later, rfl, rfl, World.relogged_advance ready _⟩, fun x same => ?_⟩
  have result : (a.outcome w.session).1 = .ok x := same
  rw [result] at ends
  exact ends

theorem ensures_bind {r : Run α} {f : α → Run β} {mid : α → Prop} {post : β → Prop}
    (first : Ensures r mid) (next : ∀ x, mid x → Ensures (f x) post) : Ensures (r >>= f) post := by
  intro w reached ready
  obtain ⟨collects, ends⟩ := first w reached ready
  rw [outcome_bind]
  cases outcome : r.outcome w with
  | mk result v =>
    rw [outcome] at collects ends
    cases result with
    | ok x =>
      obtain ⟨more, later⟩ := next x (ends x rfl) v collects.memo (collects.ready ready)
      exact ⟨collects.trans more, later⟩
    | error why => exact ⟨collects, nofun⟩

end Run

theorem Toolbox.ensures_ask (box : Toolbox) (path : Path) :
    Action.Ensures Memo.Reached True (box.ask (.tree path)) fun said =>
      ∀ value, said = .ok value → ∃ text, Json.read text = .ok value := by
  intro s reached
  refine ⟨by rwa [memo_ask], ?_⟩
  rw [outcome_ask]
  cases heard : box.read (Call.tree path).command (box.tool s.calls (.tree path)) with
  | error why => trivial
  | ok said =>
    rintro value rfl
    obtain ⟨text, -, read⟩ := eq_output_of_read heard
    exact ⟨text, read⟩

theorem Toolbox.ensures_tree (box : Toolbox) (path : Path) :
    Action.Ensures Memo.Reached True (box.tree path) fun found => ∀ tree, found = .ok tree →
      ∃ text value, Json.read text = .ok value ∧ Node.ofJson? value = some tree := by
  refine Action.ensures_bind (box.ensures_ask path) fun said heard => ?_
  cases said with
  | error why => exact Action.ensures_pure nofun
  | ok value =>
    cases read : Node.ofJson? value with
    | some node =>
      simp only [read]
      refine Action.ensures_pure ?_
      rintro _ ⟨⟩
      obtain ⟨text, printed⟩ := heard value rfl
      exact ⟨text, value, printed, read⟩
    | none =>
      simp only [read]
      exact Action.ensures_pure nofun

theorem ensures_findModuleRoot (tree : Node) :
    Action.Ensures Memo.Reached True (findModuleRoot tree) fun root =>
      root = tree.searchRoot.root := by
  have warned : ∀ texts : List Wording, Action.Ensures Memo.Reached True
      (texts.forM fun text => Action.warn text none) fun _ => True := by
    intro texts
    induction texts with
    | nil => exact Action.ensures_pure trivial
    | cons text texts ih => exact Action.ensures_after ih
  exact Action.ensures_bind (warned _) fun _ _ => Action.ensures_pure rfl

namespace Project

variable (p : Project)

theorem ensures_moduleRoot (path : Path) :
    Action.Ensures Memo.Reached True (p.moduleRoot path) fun found => ∀ root, found = some root →
      ∃ text value tree, Json.read text = .ok value ∧ Node.ofJson? value = some tree ∧
        tree.searchRoot.root = some root := by
  refine Action.ensures_bind (Toolbox.ensures_tree p.box path) fun tree read => ?_
  cases tree with
  | error why => exact Action.ensures_after (Action.ensures_pure nofun)
  | ok tree =>
    refine Action.ensures_bind (ensures_findModuleRoot tree) fun root same => ?_
    cases root with
    | none => exact Action.ensures_after (Action.ensures_pure nofun)
    | some nodes =>
      refine Action.ensures_pure ?_
      rintro _ ⟨⟩
      obtain ⟨text, value, printed, node⟩ := read tree rfl
      exact ⟨text, value, tree, printed, node, same.symm⟩

theorem ensures_loadSource (path : Path) : Run.Ensures (loadSource path) fun _ => True := by
  refine Run.ensures_bind Run.ensures_disk fun d _ => ?_
  split
  · exact Run.ensures_pure trivial
  · exact Run.ensures_throw _
  · refine Run.ensures_bind (Run.ensures_act (Action.ensures_happen _)) fun _ _ => ?_
    exact Run.ensures_pure trivial

theorem ensures_extractFile (path : Path) :
    Run.Ensures (p.extractFile path) fun found => ∀ m, found = some m → m.Reported := by
  refine Run.ensures_bind (ensures_loadSource path) fun source _ => ?_
  cases source with
  | none => exact Run.ensures_pure nofun
  | some source =>
    refine Run.ensures_act (Action.ensures_bind (p.ensures_moduleRoot path) fun root read => ?_)
    cases root with
    | none => exact Action.ensures_pure nofun
    | some nodes =>
      have extracting := Extractor.ensures_reached ⟨p.box, source⟩ nodes none
      refine Action.ensures_bind extracting fun m extracted => ?_
      refine Action.ensures_after (Action.ensures_pure ?_)
      rintro _ ⟨⟩
      obtain ⟨text, value, tree, printed, node, found⟩ := read nodes rfl
      obtain ⟨s, t, reached, outcome⟩ := extracted
      exact ⟨_, text, value, tree, nodes, none, s, t, printed, node, found, reached, outcome⟩

theorem ensures_collectFrom (paths : List Path) :
    Run.Ensures (p.collectFrom paths) fun c => ∀ m ∈ c.modules, m.Reported := by
  induction paths with
  | nil => exact Run.ensures_pure nofun
  | cons path paths ih =>
    refine Run.ensures_bind (p.ensures_extractFile path) fun found first => ?_
    cases found with
    | some m =>
      refine Run.ensures_bind ih fun rest others => Run.ensures_pure ?_
      exact List.forall_mem_cons.mpr ⟨first m rfl, others⟩
    | none => exact Run.ensures_bind ih fun rest others => Run.ensures_pure others

theorem ensures_collect : Run.Ensures p.collect fun c => ∀ m ∈ c.modules, m.Reported := by
  have discovering : Run.Ensures p.discover fun _ => True := by
    refine Run.ensures_bind Run.ensures_disk fun d _ => ?_
    cases sources d p.settings with
    | ok paths => exact Run.ensures_pure trivial
    | error why => exact Run.ensures_throw why
  refine Run.ensures_bind discovering fun paths _ => ?_
  refine Run.ensures_bind (Run.ensures_act (Action.ensures_happen _)) fun _ _ => ?_
  exact p.ensures_collectFrom paths

end Project

end ModuleStubs
