import ModuleStubs.Extraction.Draft
import ModuleStubs.Text.Blank
import ModuleStubs.Text.Cut

/-! The view of a module: the body of its first view declaration is a module of its
own, which may have a view again. The chain of these bodies follows from the
nodes alone. -/

namespace ModuleStubs

inductive ViewFault where
  /-- There is no closure with a body where one is read from. -/
  | noBody
  | emptyBody
  deriving DecidableEq

def ViewFault.message : ViewFault → String
  | .noBody => "view declarations are only read from a closure body"
  | .emptyBody => "view closure body has no declarations"

def Node.descend : List Int → Node → Option Node
  | [], n => some n
  | index :: way, n => (n.child? index).bind (descend way)

/-- The second argument, in it a closure, in it its body. -/
def viewBodyWay : List Int := [1, 0, 0]

def Node.viewBody (n : Node) : Except ViewFault (List Node) :=
  match n.descend viewBodyWay with
  | none => .error .noBody
  | some body => if body.hasChildren then .ok body.children else .error .emptyBody

def withoutSelf (cs : List Char) : List Char :=
  match Text.after? ".self".toList.reverse cs.reverse with
  | some rest => rest.reverse
  | none => cs

def viewName? (s : Source) (n : Node) : Option String :=
  ((n.child? 0).bind s.readableText?).bind fun text =>
    let name := String.ofList (withoutSelf (Text.trimChars text.toList))
    if name = "" then none else some name

def viewNode? (root : List Node) : Option Node :=
  root.find? fun n => n.name = some (Wording.ofString Label.view)

inductive ViewChain where
  | none
  | broken (why : ViewFault)
  | nested (root : List Node) (name : Option String) (more : ViewChain)

theorem Node.sizeOf_child {n c : Node} {index : Int} (h : n.child? index = some c) :
    sizeOf c < sizeOf n := by
  unfold Node.child? at h
  split at h
  · cases h
  · have hc := List.sizeOf_lt_of_mem (List.mem_of_getElem? h)
    cases n
    simp_all only [Node.mk.sizeOf_spec]
    omega

theorem Node.sizeOf_descend {way : List Int} {n d : Node} (h : n.descend way = some d) :
    sizeOf d ≤ sizeOf n := by
  induction way generalizing n with
  | nil => cases h; exact Nat.le_refl _
  | cons index way ih =>
    obtain ⟨c, hc, hd⟩ := Option.bind_eq_some_iff.mp h
    exact Nat.le_trans (ih hd) (Nat.le_of_lt (Node.sizeOf_child hc))

theorem Node.sizeOf_viewBody {n : Node} {body : List Node} (h : n.viewBody = .ok body) :
    sizeOf body < sizeOf n := by
  unfold Node.viewBody at h
  split at h
  · cases h
  · next d hd =>
    split at h
    · cases h
      have := Node.sizeOf_descend hd
      cases d
      simp only [Node.mk.sizeOf_spec] at this ⊢
      omega
    · cases h

theorem sizeOf_of_viewNode? {root : List Node} {n : Node} (h : viewNode? root = some n) :
    sizeOf n < sizeOf root :=
  List.sizeOf_lt_of_mem (List.mem_of_find?_eq_some h)

/-- The bodies of views inside views, from the first view of a module on. -/
def ViewChain.ofRoot (s : Source) (root : List Node) : ViewChain :=
  match _hn : viewNode? root with
  | Option.none => .none
  | some n =>
    match _hb : n.viewBody with
    | .error why => .broken why
    | .ok body => .nested body (viewName? s n) (ofRoot s body)
termination_by sizeOf root
decreasing_by exact Nat.lt_trans (Node.sizeOf_viewBody _hb) (sizeOf_of_viewNode? _hn)

theorem ViewChain.ofRoot_of_none {s : Source} {root : List Node}
    (h : viewNode? root = Option.none) :
    ofRoot s root = .none := by
  rw [ofRoot]
  split
  · rfl
  · next hn => rw [h] at hn; cases hn

theorem ViewChain.ofRoot_of_body {s : Source} {root body : List Node} {n : Node}
    (h : viewNode? root = some n) (hb : n.viewBody = .ok body) :
    ofRoot s root = .nested body (viewName? s n) (ofRoot s body) := by
  rw [ofRoot]
  split
  · next hn => rw [h] at hn; cases hn
  · next found hn =>
    rw [h] at hn
    cases hn
    split
    · next hw => rw [hb] at hw; cases hw
    · next hw => rw [hb] at hw; cases hw; rfl

end ModuleStubs
