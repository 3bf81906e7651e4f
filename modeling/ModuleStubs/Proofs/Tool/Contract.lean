import ModuleStubs.Tool.Lookup

/-! Contracts of actions. An action that may assume something of the kept signatures
has to leave it true; a result has the promised property, and if there is none, something
is to blame. -/

namespace ModuleStubs.Action

variable {α β : Type} {known : Memo → Prop} {blame : Prop}

def Ensures (known : Memo → Prop) (blame : Prop) (a : Action α) (post : α → Prop) : Prop :=
  ∀ s, known s.memo → known (a.outcome s).2.memo ∧
    match (a.outcome s).1 with
    | .ok value => post value
    | .error _ => blame

theorem ensures_pure {a : α} {post : α → Prop} (h : post a) :
    Ensures known blame (pure a) post :=
  fun _ start => ⟨start, h⟩

theorem ensures_happen (e : Event) : Ensures known blame (happen e) fun _ => True :=
  fun _ start => ⟨start, trivial⟩

theorem ensures_bind {a : Action α} {f : α → Action β} {mid : α → Prop} {post : β → Prop}
    (first : Ensures known blame a mid) (next : ∀ x, mid x → Ensures known blame (f x) post) :
    Ensures known blame (a >>= f) post := by
  intro s start
  have ran := first s start
  rw [outcome_bind]
  cases reached : a.outcome s with
  | mk result t =>
    rw [reached] at ran
    cases result with
    | ok x => exact next x ran.2 t ran.1
    | error why => exact ran

theorem ensures_after {e : Event} {f : Unit → Action β} {post : β → Prop}
    (next : Ensures known blame (f ()) post) : Ensures known blame (happen e >>= f) post :=
  ensures_bind (ensures_happen e) fun _ _ => next

theorem Ensures.mono {a : Action α} {post weaker : α → Prop} (h : Ensures known blame a post)
    (weaken : ∀ x, post x → weaker x) : Ensures known blame a weaker := by
  intro s start
  obtain ⟨held, ends⟩ := h s start
  refine ⟨held, ?_⟩
  cases result : (a.outcome s).1 with
  | ok x =>
    rw [result] at ends
    exact weaken x ends
  | error why =>
    rw [result] at ends
    exact ends

end ModuleStubs.Action
