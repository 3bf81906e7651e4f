import Mathlib.Data.List.TakeWhile
import ModuleStubs.Extraction.Definition
import ModuleStubs.Proofs.Tool.Account

/-! The search for the module definition goes through the tree in preorder: it finds the first
marker with children, and warns of the markers without children that it passes on the way. -/

namespace ModuleStubs

namespace Node

def isRoot (n : Node) : Bool := n.isMarker && n.hasChildren

def isMalformed (n : Node) : Bool := n.isMarker && !n.hasChildren

end Node

namespace RootSearch

def along (nodes : List Node) : RootSearch :=
  ⟨(nodes.find? Node.isRoot).map (·.children),
    ((nodes.takeWhile fun n => !n.isRoot).filter Node.isMalformed).length⟩

theorem along_nil : along [] = ⟨none, 0⟩ := rfl

theorem along_cons_of_isRoot {n : Node} (root : n.isRoot = true) (nodes : List Node) :
    along (n :: nodes) = ⟨some n.children, 0⟩ := by
  simp [along, root]

theorem along_cons_of_isMalformed {n : Node} (malformed : n.isMalformed = true)
    (nodes : List Node) :
    along (n :: nodes) = ⟨(along nodes).root, 1 + (along nodes).malformed⟩ := by
  have other : n.isRoot = false := by
    rw [Node.isMalformed, Bool.and_eq_true, Bool.not_eq_true'] at malformed
    rw [Node.isRoot, malformed.2, Bool.and_false]
  simp [along, other, malformed, Nat.add_comm]

theorem along_cons_of_not_isMarker {n : Node} (other : n.isMarker = false) (nodes : List Node) :
    along (n :: nodes) = along nodes := by
  simp [along, Node.isRoot, Node.isMalformed, other]

/-- Where nothing is found the search goes on, and its warnings add up. -/
theorem along_append (first rest : List Node) :
    along (first ++ rest) =
      match (along first).root with
      | some root => ⟨some root, (along first).malformed⟩
      | none => ⟨(along rest).root, (along first).malformed + (along rest).malformed⟩ := by
  induction first with
  | nil => simp [along_nil]
  | cons n first ih =>
    rw [List.cons_append]
    cases marked : n.isMarker with
    | false =>
      rw [along_cons_of_not_isMarker marked, along_cons_of_not_isMarker marked, ih]
    | true =>
      cases below : n.hasChildren with
      | true =>
        have root : n.isRoot = true := by rw [Node.isRoot, marked, below, Bool.and_self]
        rw [along_cons_of_isRoot root, along_cons_of_isRoot root]
      | false =>
        have malformed : n.isMalformed = true := by
          rw [Node.isMalformed, marked, below, Bool.not_false, Bool.and_self]
        rw [along_cons_of_isMalformed malformed, along_cons_of_isMalformed malformed, ih]
        cases (along first).root with
        | some root => rfl
        | none => simp only [Nat.add_assoc]

end RootSearch

mutual

/-- The search down the tree is the search along its preorder. -/
theorem Node.searchRoot_eq_along (n : Node) : n.searchRoot = RootSearch.along n.preorder := by
  obtain ⟨kind, typename, name, offset, length, children⟩ := n
  rw [Node.searchRoot, Node.preorder]
  split
  · next marked =>
    cases children with
    | nil =>
      have malformed : Node.isMalformed ⟨kind, typename, name, offset, length, []⟩ = true := by
        rw [Node.isMalformed, marked]
        rfl
      rw [RootSearch.along_cons_of_isMalformed malformed]
      rfl
    | cons child children =>
      have root : Node.isRoot ⟨kind, typename, name, offset, length, child :: children⟩ = true := by
        rw [Node.isRoot, marked]
        rfl
      rw [RootSearch.along_cons_of_isRoot root]
      rfl
  · next other =>
    rw [RootSearch.along_cons_of_not_isMarker (by simpa using other)]
    exact searchRoots_eq_along children

theorem searchRoots_eq_along (nodes : List Node) :
    searchRoots nodes = RootSearch.along (preorders nodes) := by
  cases nodes with
  | nil => rw [searchRoots, preorders, RootSearch.along_nil]
  | cons n nodes =>
    rw [searchRoots, preorders, Node.searchRoot_eq_along n, searchRoots_eq_along nodes]
    refine Eq.trans ?_ (RootSearch.along_append n.preorder (preorders nodes)).symm
    cases (RootSearch.along n.preorder).root <;> rfl

end

def malformedWarnings (passed : List Node) : List Diagnostic :=
  (passed.filter Node.isMalformed).map fun _ => ⟨.warning, malformedText, none⟩

theorem malformedWarnings_eq_replicate (passed : List Node) :
    malformedWarnings passed = (List.replicate (passed.filter Node.isMalformed).length
      malformedText).map fun text => ⟨.warning, text, none⟩ := by
  rw [malformedWarnings, List.map_replicate, List.map_const']

theorem outcome_findModuleRoot (tree : Node) (s : Session) :
    ∃ t, (findModuleRoot tree).outcome s =
        (.ok ((tree.preorder.find? Node.isRoot).map (·.children)), t) ∧ t.memo = s.memo ∧
      s.Follows t ⟨[], malformedWarnings (tree.preorder.takeWhile fun n => !n.isRoot)⟩ := by
  obtain ⟨t, warned, memo, follows⟩ := Action.outcome_warnings
    (List.replicate tree.searchRoot.malformed malformedText) s
  refine ⟨t, ?_, memo, ?_⟩
  · rw [findModuleRoot, Action.outcome_bind_of_ok warned, tree.searchRoot_eq_along]
    rfl
  · rw [malformedWarnings_eq_replicate]
    rw [tree.searchRoot_eq_along] at follows
    exact follows

/-- The module definition of a tree is below the first marker in preorder that has children, and
there is none if no marker has. Each marker without children that comes before it, or each one
of the tree if there is none, gives one warning; nothing else is told and the tool is not asked. -/
theorem findModuleRoot_first_in_preorder (tree : Node) (s : Session) :
    ∃ root t, (findModuleRoot tree).outcome s = (.ok root, t) ∧
      t.calls = s.calls ∧ t.memo = s.memo ∧
      (root = none ↔ ∀ n ∈ tree.preorder, n.isRoot = false) ∧
      (root = none → t.diagnostics = s.diagnostics ++ malformedWarnings tree.preorder) ∧
      ∀ children, root = some children → ∃ passed n later,
        tree.preorder = passed ++ n :: later ∧ (∀ k ∈ passed, k.isRoot = false) ∧
        n.isRoot = true ∧ children = n.children ∧
        t.diagnostics = s.diagnostics ++ malformedWarnings passed := by
  obtain ⟨t, done, memo, calls, diagnostics⟩ := outcome_findModuleRoot tree s
  refine ⟨_, t, done, calls.trans (List.append_nil _), memo, ?_, ?_, ?_⟩
  · rw [Option.map_eq_none_iff, List.find?_eq_none]
    simp only [Bool.not_eq_true]
  · intro missing
    rw [Option.map_eq_none_iff, List.find?_eq_none] at missing
    -- No node stops the search, so it passes the whole tree.
    have whole : (tree.preorder.takeWhile fun n => !n.isRoot) = tree.preorder :=
      List.takeWhile_eq_self_iff.mpr fun n mem => by simpa using missing n mem
    rw [diagnostics, whole]
  · intro children found
    obtain ⟨n, first, rfl⟩ := Option.map_eq_some_iff.mp found
    obtain ⟨root, passed, later, listed, others⟩ := List.find?_eq_some_iff_append.mp first
    have before : (tree.preorder.takeWhile fun n => !n.isRoot) = passed := by
      rw [listed, List.takeWhile_append_of_pos others, List.takeWhile_cons_of_neg (by simp [root]),
        List.append_nil]
    refine ⟨passed, n, later, listed, fun k mem => by simpa using others k mem, root, rfl, ?_⟩
    rw [diagnostics, before]

end ModuleStubs
