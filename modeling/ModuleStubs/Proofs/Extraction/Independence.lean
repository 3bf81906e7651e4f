import Mathlib.Logic.Relation
import ModuleStubs.Proofs.Extraction.Classification
import ModuleStubs.Proofs.Extraction.Nesting

/-! Extraction reads the nodes under each label apart from those under the others: how nodes
with different labels stand to each other does not matter, nor do nodes without a label. -/

namespace ModuleStubs

/-- One step that keeps the order of the nodes under each label: two neighbours with different
names change places, or a node without a label comes in. -/
inductive Nudge : List Node → List Node → Prop
  | swap (front : List Node) {first second : Node} (apart : first.name ≠ second.name)
    (back : List Node) :
    Nudge (front ++ first :: second :: back) (front ++ second :: first :: back)
  | insert (front : List Node) {n : Node} (unlabelled : n.isLabelled = false)
    (back : List Node) : Nudge (front ++ back) (front ++ n :: back)

def Rearranged : List Node → List Node → Prop := Relation.EqvGen Nudge

theorem labelled_swap (label : String) {first second : Node} (apart : first.name ≠ second.name)
    (back : List Node) :
    labelled label (first :: second :: back) = labelled label (second :: first :: back) := by
  unfold labelled
  by_cases has : first.name = some (Wording.ofString label)
  · have other : second.name ≠ some (Wording.ofString label) :=
      fun same => apart (has.trans same.symm)
    simp [has, other]
  · by_cases other : second.name = some (Wording.ofString label) <;> simp [has, other]

theorem labelled_insert {label : String} (known : label ∈ Label.view :: Label.ofGroups) {n : Node}
    (unlabelled : n.isLabelled = false) (back : List Node) :
    labelled label (n :: back) = labelled label back := by
  have dropped : (n :: back).filter Node.isLabelled = back.filter Node.isLabelled :=
    List.filter_cons_of_neg (by simp [unlabelled])
  rw [← labelled_filter_isLabelled known (n :: back), dropped, labelled_filter_isLabelled known]

theorem Nudge.labelled_eq {a b : List Node} (step : Nudge a b) {label : String}
    (known : label ∈ Label.view :: Label.ofGroups) : labelled label a = labelled label b := by
  cases step with
  | swap front apart back =>
    rw [labelled_append, labelled_append, labelled_swap label apart]
  | insert front unlabelled back =>
    rw [labelled_append, labelled_append, labelled_insert known unlabelled]

theorem Rearranged.labelled_eq {a b : List Node} (steps : Rearranged a b) {label : String}
    (known : label ∈ Label.view :: Label.ofGroups) : labelled label a = labelled label b := by
  have same := eq_equivalence.comap (labelled label)
  exact same.eqvGen_iff.mp (steps.mono fun _ _ step => step.labelled_eq known)

namespace Extractor

/-- Two roots with the same nodes, in the same order, under each label and with the same first
view give the same definition, or end in the same way. The tool is called in the same order,
and the same diagnostics are noted, whatever the tool makes of earlier calls. This holds of
roots that differ in the order of nodes with different labels only, or in nodes without any. -/
theorem extract_reads_labels_apart (x : Extractor) (defaultName : Option String) :
    (∀ a b, (∀ label ∈ Label.ofGroups, labelled label a = labelled label b) →
      viewNode? a = viewNode? b →
      ∀ s, (x.extract a defaultName).outcome s = (x.extract b defaultName).outcome s) ∧
    ∀ a b, Rearranged a b →
      ∀ s, (x.extract a defaultName).outcome s = (x.extract b defaultName).outcome s := by
  have apart : ∀ a b, (∀ label ∈ Label.ofGroups, labelled label a = labelled label b) →
      viewNode? a = viewNode? b →
      ∀ s, (x.extract a defaultName).outcome s = (x.extract b defaultName).outcome s := by
    intro a b groups view s
    rw [x.extract_congr defaultName groups view]
  refine ⟨apart, fun a b steps => apart a b (fun label mem => ?_) ?_⟩
  · exact steps.labelled_eq (List.mem_cons_of_mem _ mem)
  · rw [viewNode?_eq_head?, viewNode?_eq_head?, steps.labelled_eq List.mem_cons_self]

def lookedUpProperty : Node :=
  ⟨none, none, some Label.property, none, none,
    [⟨none, none, none, some 1, some 1, []⟩, ⟨none, none, none, some 9, none, []⟩]⟩

def unlabelled : Node := ⟨none, none, some "Constants", none, none, []⟩

theorem function_asked_first :
    Rearranged [lookedUp, lookedUpProperty] [unlabelled, lookedUpProperty, lookedUp] ∧
    ((sampleExtractor.extract [unlabelled, lookedUpProperty, lookedUp] (some "M")).outcome
      {}).2.calls =
        [.request sampleExtractor.source.path 7, .request sampleExtractor.source.path 9] := by
  have swapped : Rearranged [lookedUp, lookedUpProperty] [lookedUpProperty, lookedUp] :=
    .rel _ _ (.swap [] (by decide) [])
  have steps : Rearranged [lookedUp, lookedUpProperty] [unlabelled, lookedUpProperty, lookedUp] :=
    swapped.trans _ _ _ (.rel _ _ (.insert [] (by decide) [lookedUpProperty, lookedUp]))
  refine ⟨steps, ?_⟩
  rw [← (sampleExtractor.extract_reads_labels_apart (some "M")).2 _ _ steps,
    extract_eq_viewAlong, ViewChain.ofRoot_of_none rfl]
  decide +kernel

end Extractor

end ModuleStubs
