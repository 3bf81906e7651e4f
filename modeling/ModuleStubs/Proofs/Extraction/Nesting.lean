import ModuleStubs.Proofs.Disk.Growth
import ModuleStubs.Proofs.Extraction.Classification

/-! Views inside the view of a module. Extraction reads them after everything else and keeps
nothing of what they give; but the first of them is read, and so is the first view in its body,
and so on. -/

namespace ModuleStubs

def viewBody? (root : List Node) : Option (List Node) :=
  (viewNode? root).bind fun n => n.viewBody.toOption

theorem viewBody?_of_ok {root body : List Node} {n : Node} (first : viewNode? root = some n)
    (below : n.viewBody = .ok body) : viewBody? root = some body := by
  rw [viewBody?, first, Option.bind_some, below]
  rfl

theorem viewBody?_of_error {root : List Node} {n : Node} {why : ViewFault}
    (first : viewNode? root = some n) (below : n.viewBody = .error why) :
    viewBody? root = none := by
  rw [viewBody?, first, Option.bind_some, below]
  rfl

theorem exists_of_viewBody? {root body : List Node} (below : viewBody? root = some body) :
    ∃ n, viewNode? root = some n ∧ n.viewBody = .ok body := by
  obtain ⟨n, first, filled⟩ := Option.bind_eq_some_iff.mp below
  exact ⟨n, first, eq_ok_of_toOption filled⟩

namespace Extractor

variable (x : Extractor)

/-- The view at the head of a chain, by recursion on the chain alone. -/
def viewAlong : ViewChain → Action (Option Definition)
  | .none => pure none
  | .broken why => do
    x.warn s!"Could not parse view definition: {why.message}"
    pure none
  | .nested root name more => do
    let definition ← x.surface root name
    let _ ← viewAlong more
    pure (some { definition with view := none })

theorem viewOf_eq_viewAlong (chain : ViewChain) : x.viewOf chain = x.viewAlong chain := by
  induction chain with
  | none => rw [viewOf, viewAlong]
  | broken why => rw [viewOf, viewAlong]
  | nested root name more ih =>
    simp only [viewOf, chained, viewAlong, ih, bind_assoc, pure_bind]

theorem extract_eq_viewAlong (root : List Node) (defaultName : Option String) :
    x.extract root defaultName = (do
      let definition ← x.surface root defaultName
      let view ← x.viewAlong (ViewChain.ofRoot x.source root)
      pure { definition with view := view }) := by
  rw [extract, chained, viewOf_eq_viewAlong]

def outerView (root : List Node) : Action (Option Definition) :=
  match viewNode? root with
  | none => pure none
  | some n =>
    match n.viewBody with
    | .error why => do
      x.warn s!"Could not parse view definition: {why.message}"
      pure none
    | .ok body => do
      let definition ← x.surface body (viewName? x.source n)
      pure (some { definition with view := none })

def innerView (root : List Node) : Action (Option Definition) :=
  match viewBody? root with
  | none => pure none
  | some body => x.view body

theorem view_eq_outer_inner (root : List Node) : x.view root = (do
    let view ← x.outerView root
    let _ ← x.innerView root
    pure view) := by
  rw [view, viewOf_eq_viewAlong]
  cases first : viewNode? root with
  | none =>
    have bodiless : viewBody? root = none := by rw [viewBody?, first, Option.bind_none]
    simp only [ViewChain.ofRoot_of_none first, viewAlong, outerView, first, innerView, bodiless,
      pure_bind]
  | some n =>
    cases below : n.viewBody with
    | error why =>
      simp only [ViewChain.ofRoot_of_fault first below, viewAlong, outerView, first, below,
        innerView, viewBody?_of_error first below, bind_assoc, pure_bind]
    | ok body =>
      simp only [ViewChain.ofRoot_of_body first below, viewAlong, outerView, first, below,
        innerView, viewBody?_of_ok first below, view, viewOf_eq_viewAlong, bind_assoc, pure_bind]

def extractOuter (root : List Node) (defaultName : Option String) : Action Definition := do
  let definition ← x.surface root defaultName
  let view ← x.outerView root
  pure { definition with view := view }

/-- The views inside the view are read last, and what they give is dropped. -/
theorem extract_eq_outer_inner (root : List Node) (defaultName : Option String) :
    x.extract root defaultName = (do
      let m ← x.extractOuter root defaultName
      let _ ← x.innerView root
      pure m) := by
  have viewed : x.viewOf (ViewChain.ofRoot x.source root) = x.view root := rfl
  simp only [extract, chained, viewed, view_eq_outer_inner, extractOuter, bind_assoc, pure_bind]

end Extractor

namespace Node

def alterBelow (f : List Node → List Node) : List Int → Node → Node
  | [], n => { n with children := f n.children }
  | index :: way, n =>
    if index < 0 then n
    else { n with children := n.children.modify index.toNat (alterBelow f way) }

variable (f : List Node → List Node)

theorem child?_alterBelow (index : Int) (way : List Int) (n : Node) :
    (n.alterBelow f (index :: way)).child? index = (n.child? index).map (alterBelow f way) := by
  rw [alterBelow, child?, child?]
  split_ifs with negative
  · rfl
  · exact List.getElem?_modify_eq _ _ _

theorem child?_alterBelow_of_ne {index other : Int} (known : 0 ≤ index) (apart : index ≠ other)
    (way : List Int) (n : Node) :
    (n.alterBelow f (index :: way)).child? other = n.child? other := by
  rw [alterBelow, if_neg (Int.not_lt.mpr known), child?, child?]
  split_ifs with negative
  · rfl
  · exact List.getElem?_modify_ne _ _ (by omega)

@[simp] theorem name_alterBelow (way : List Int) (n : Node) :
    (n.alterBelow f way).name = n.name := by
  cases way with
  | nil => rfl
  | cons index way =>
    rw [alterBelow]
    split_ifs <;> rfl

theorem descend_alterBelow (way : List Int) (n : Node) :
    (n.alterBelow f way).descend way =
      (n.descend way).map fun d => { d with children := f d.children } := by
  induction way generalizing n with
  | nil => rfl
  | cons index way ih =>
    rw [descend, descend, child?_alterBelow, Option.bind_map, Option.map_bind]
    congr 1
    funext c
    exact ih c

theorem viewBody_alterBelow (filled : ∀ nodes, (f nodes).isEmpty = nodes.isEmpty) (n : Node) :
    (n.alterBelow f viewBodyWay).viewBody = n.viewBody.map f := by
  rw [viewBody, viewBody, descend_alterBelow]
  cases n.descend viewBodyWay with
  | none => rfl
  | some d =>
    change (if !(f d.children).isEmpty then _ else _) = _
    rw [filled]
    change (if d.hasChildren then _ else _) = _
    split_ifs <;> simp [Except.map, *]

end Node

def hollow (nodes : List Node) : List Node :=
  nodes.map fun n =>
    if n.name = some (Wording.ofString Label.view) then { n with children := [] } else n

theorem isEmpty_hollow (nodes : List Node) : (hollow nodes).isEmpty = nodes.isEmpty := by
  cases nodes <;> rfl

theorem labelled_hollow {label : String} (other : label ≠ Label.view) (nodes : List Node) :
    labelled label (hollow nodes) = labelled label nodes := by
  unfold labelled hollow
  induction nodes with
  | nil => rfl
  | cons n nodes ih =>
    rw [List.map_cons, List.filter_cons, List.filter_cons, ih]
    by_cases view : n.name = some (Wording.ofString Label.view)
    · have off : ¬ Label.view = label := fun same => other same.symm
      simp [view, off]
    · rw [if_neg view]

def outsideInner : List Node → List Node
  | [] => []
  | n :: ns =>
    if n.name = some (Wording.ofString Label.view) then n.alterBelow hollow viewBodyWay :: ns
    else n :: outsideInner ns

theorem labelled_outsideInner {label : String} (other : label ≠ Label.view) (root : List Node) :
    labelled label (outsideInner root) = labelled label root := by
  unfold labelled
  induction root with
  | nil => rfl
  | cons n root ih =>
    rw [outsideInner]
    split_ifs with view
    · have off : ¬ Label.view = label := fun same => other same.symm
      simp [view, off]
    · rw [List.filter_cons, List.filter_cons, ih]

theorem viewNode?_outsideInner (root : List Node) :
    viewNode? (outsideInner root) = (viewNode? root).map (Node.alterBelow hollow viewBodyWay) := by
  unfold viewNode?
  induction root with
  | nil => rfl
  | cons n root ih =>
    rw [outsideInner]
    split_ifs with view
    · simp [view]
    · rw [List.find?_cons_of_neg (by simpa using view), ih,
        List.find?_cons_of_neg (by simpa using view)]

theorem viewName?_alterBelow (s : Source) (f : List Node → List Node) (n : Node) :
    viewName? s (n.alterBelow f viewBodyWay) = viewName? s n := by
  have first : (n.alterBelow f viewBodyWay).child? 0 = n.child? 0 :=
    Node.child?_alterBelow_of_ne f (by decide) (by decide) _ n
  rw [viewName?, first]
  rfl

theorem Label.ne_view_of_mem {label : String} (mem : label ∈ Label.ofGroups) :
    label ≠ Label.view := by
  rintro rfl
  exact absurd mem (by decide)

namespace Extractor

variable (x : Extractor)

theorem outerView_outsideInner (root : List Node) :
    x.outerView (outsideInner root) = x.outerView root := by
  rw [outerView, outerView, viewNode?_outsideInner]
  cases viewNode? root with
  | none => rfl
  | some n =>
    simp only [Option.map_some, Node.viewBody_alterBelow hollow isEmpty_hollow,
      viewName?_alterBelow]
    cases n.viewBody with
    | error why => rfl
    | ok body =>
      have groups : ∀ label ∈ Label.ofGroups, labelled label (hollow body) = labelled label body :=
        fun label mem => labelled_hollow (Label.ne_view_of_mem mem) body
      simp only [Except.map, x.surface_congr _ groups]

theorem extractOuter_outsideInner (root : List Node) (defaultName : Option String) :
    x.extractOuter (outsideInner root) defaultName = x.extractOuter root defaultName := by
  rw [extractOuter, extractOuter, outerView_outsideInner,
    x.surface_congr defaultName fun label mem =>
    labelled_outsideInner (Label.ne_view_of_mem mem) root]

theorem innerView_congr {a b : List Node}
    (same : (viewBody? a).bind viewNode? = (viewBody? b).bind viewNode?) :
    x.innerView a = x.innerView b := by
  have first : ∀ root, x.innerView root = x.view ((viewBody? root).bind viewNode?).toList := by
    intro root
    rw [innerView]
    cases viewBody? root with
    | none =>
      rw [Option.bind_none, Option.toList_none, view, ViewChain.ofRoot_of_none rfl, viewOf]
    | some body =>
      refine congrArg x.viewOf (ViewChain.ofRoot_congr ?_)
      rw [Option.bind_some]
      cases found : viewNode? body with
      | none => rfl
      | some n =>
        have view : n.name = some (Wording.ofString Label.view) := by
          simpa using List.find?_some found
        simp [viewNode?, view]
  rw [first a, first b, same]

theorem follows_innerView {root : List Node} {s t : Session} {v : Option Definition}
    (done : (x.innerView root).outcome s = (.ok v, t)) :
    s.calls <+: t.calls ∧ s.diagnostics <+: t.diagnostics := by
  have follows : ∃ tale, s.Follows t tale := by
    rw [innerView] at done
    split at done
    · cases done
      exact ⟨{}, .refl s⟩
    · obtain ⟨tale, follows, -⟩ := x.accounts_viewOf s _
      rw [view] at done
      rw [done] at follows
      exact ⟨tale, follows⟩
  obtain ⟨tale, calls, diagnostics⟩ := follows
  exact ⟨⟨tale.calls, calls.symm⟩, ⟨tale.notes, diagnostics.symm⟩⟩

variable {x} in
theorem outer_of_extract {root : List Node} {defaultName : Option String} {s t : Session}
    {m : Definition} (done : (x.extract root defaultName).outcome s = (.ok m, t)) :
    ∃ middle, (x.extractOuter root defaultName).outcome s = (.ok m, middle) ∧
      middle.calls <+: t.calls ∧ middle.diagnostics <+: t.diagnostics := by
  rw [extract_eq_outer_inner] at done
  obtain ⟨own, middle, read, rest⟩ := Action.outcome_bind_eq_ok.mp done
  obtain ⟨v, last, viewed, given⟩ := Action.outcome_bind_eq_ok.mp rest
  cases given
  exact ⟨middle, read, x.follows_innerView viewed⟩

/-- Whatever is inside the views in the body of the first view, the module with its view comes
out the same, by the same work. That work is done first. What is inside those views can add to
it only at its end, and only what the first of them adds. -/
theorem extract_bounded {a b : List Node} (same : outsideInner a = outsideInner b)
    (defaultName : Option String) :
    (∀ root, x.extract root defaultName = (do
      let m ← x.extractOuter root defaultName
      let _ ← x.innerView root
      pure m)) ∧
    x.extractOuter a defaultName = x.extractOuter b defaultName ∧
    ((viewBody? a).bind viewNode? = (viewBody? b).bind viewNode? →
      x.extract a defaultName = x.extract b defaultName) ∧
    (x.box.Readable → ∀ s, ∃ m t u, (x.extract a defaultName).outcome s = (.ok m, t) ∧
      (x.extract b defaultName).outcome s = (.ok m, u)) ∧
    ∀ s m n t u, (x.extract a defaultName).outcome s = (.ok m, t) →
      (x.extract b defaultName).outcome s = (.ok n, u) → m = n ∧
      ∃ middle, (x.extractOuter a defaultName).outcome s = (.ok m, middle) ∧
        (middle.calls <+: t.calls ∧ middle.diagnostics <+: t.diagnostics) ∧
        (middle.calls <+: u.calls ∧ middle.diagnostics <+: u.diagnostics) := by
  have outer : x.extractOuter a defaultName = x.extractOuter b defaultName := by
    rw [← x.extractOuter_outsideInner a, same, x.extractOuter_outsideInner b]
  refine ⟨fun root => x.extract_eq_outer_inner root defaultName, outer, fun first => ?_,
    fun readable s => ?_, fun s m n t u doneA doneB => ?_⟩
  · rw [extract_eq_outer_inner, extract_eq_outer_inner, outer, x.innerView_congr first]
  · obtain ⟨m, t, doneA⟩ := x.extract_returns readable a defaultName s
    obtain ⟨n, u, doneB⟩ := x.extract_returns readable b defaultName s
    obtain ⟨middle, readA, -⟩ := outer_of_extract doneA
    obtain ⟨other, readB, -⟩ := outer_of_extract doneB
    rw [← outer, readA] at readB
    cases readB
    exact ⟨m, t, u, doneA, doneB⟩
  · obtain ⟨middle, readA, toldA⟩ := outer_of_extract doneA
    obtain ⟨other, readB, toldB⟩ := outer_of_extract doneB
    rw [← outer, readA] at readB
    cases readB
    exact ⟨rfl, middle, readA, toldA, toldB⟩

def viewWith (body : List Node) : Node :=
  ⟨none, none, some Label.view, none, none,
    [⟨none, none, none, some 2, some 1, []⟩,
      ⟨none, none, none, none, none,
        [⟨none, none, none, none, none, [⟨none, none, none, none, none, body⟩]⟩]⟩]⟩

def viewInView (inner : List Node) : List Node := [viewWith [viewWith inner]]

def lookedUp : Node :=
  ⟨none, none, some Label.function, none, none,
    [⟨none, none, none, some 1, some 1, []⟩, ⟨none, none, none, some 7, none, []⟩]⟩

def eventless : Node := ⟨none, none, some Label.events, none, none, []⟩

theorem extract_viewInView (n : Node) (plain : n.name ≠ some (Wording.ofString Label.view)) :
    sampleExtractor.extract (viewInView [n]) (some "M") = (do
      let definition ← sampleExtractor.surface (viewInView [n]) (some "M")
      let view ← sampleExtractor.viewAlong
        (.nested [viewWith [n]] (viewName? sampleExtractor.source (viewWith [viewWith [n]]))
          (.nested [n] (viewName? sampleExtractor.source (viewWith [n])) .none))
      pure { definition with view := view }) := by
  have last : viewNode? [n] = none := by simpa [viewNode?] using plain
  have outside : viewNode? (viewInView [n]) = some (viewWith [viewWith [n]]) := rfl
  have inside : viewNode? [viewWith [n]] = some (viewWith [n]) := rfl
  rw [extract_eq_viewAlong, ViewChain.ofRoot_of_body outside rfl,
    ViewChain.ofRoot_of_body inside rfl,
    ViewChain.ofRoot_of_none last]

theorem inner_view_dropped :
    outsideInner (viewInView [lookedUp]) = outsideInner (viewInView [eventless]) ∧
    ∃ m t u, (sampleExtractor.extract (viewInView [lookedUp]) (some "M")).outcome {} = (.ok m, t) ∧
      (sampleExtractor.extract (viewInView [eventless]) (some "M")).outcome {} = (.ok m, u) := by
  have readable : sampleExtractor.box.Readable :=
    Toolbox.readable_of_missing fun _ _ => rfl
  have same : outsideInner (viewInView [lookedUp]) = outsideInner (viewInView [eventless]) := rfl
  obtain ⟨-, -, -, returns, -⟩ := sampleExtractor.extract_bounded same (some "M")
  exact ⟨same, returns readable {}⟩

/-- The type of a function in a view inside the view is asked for, and the failure is noted. -/
theorem inner_view_asks :
    outsideInner (viewInView [lookedUp]) = outsideInner (viewInView [eventless]) ∧
    (((sampleExtractor.extract (viewInView [lookedUp]) (some "M")).outcome {}).2.calls =
      [.request sampleExtractor.source.path 7] ∧
    ((sampleExtractor.extract (viewInView [lookedUp]) (some "M")).outcome {}).2.diagnostics =
      [sampleExtractor.lostNote Label.function (some 7) .missing]) ∧
    ((sampleExtractor.extract (viewInView [eventless]) (some "M")).outcome {}).2.calls = [] ∧
    ((sampleExtractor.extract (viewInView [eventless]) (some "M")).outcome {}).2.diagnostics =
      [] := by
  refine ⟨rfl, ?_, ?_⟩
  · rw [extract_viewInView lookedUp (by decide)]
    decide +kernel
  · rw [extract_viewInView eventless (by decide)]
    decide +kernel

end Extractor

end ModuleStubs
