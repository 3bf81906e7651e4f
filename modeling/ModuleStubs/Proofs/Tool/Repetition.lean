import ModuleStubs.Proofs.Path.RoundTrip
import ModuleStubs.Proofs.Tool.Account

/-! Work with a tool that answers the same call in the same way. What such work finds and
notes does not depend on what has happened before, nor on the lookups that are kept: a
kept signature is what the tool would answer again. -/

namespace ModuleStubs.Toolbox

variable {α β : Type} {box : Toolbox}

def Heard (box : Toolbox) (call : Call) : Prop := ¬ (box.tool [] call).EndsWork call

/-- Work that reaches the session by notes, calls and lookups only. -/
inductive Work (box : Toolbox) : {α : Type} → Action α → Prop
  | pure {α : Type} (a : α) : Work box (pure a)
  | bind {α β : Type} {a : Action α} {f : α → Action β} (first : Work box a)
    (next : ∀ x, Work box (f x)) : Work box (a >>= f)
  | note (e : Event) (silent : e.call? = none) : Work box (Action.happen e)
  | ask (path : Path) : Work box (box.ask (.tree path))
  | lookup (path : Path) (proper : path.Proper) (offset : Int) : Work box (box.lookup path offset)

def answer (box : Toolbox) (path : Path) (offset : Int) :
    Except Abort (Except ToolFault Signature) :=
  box.requestResult path offset (box.tool [] (.request path offset))

/-- Every kept signature is the answer for its place. -/
def Sound (box : Toolbox) (memo : Memo) : Prop :=
  ∀ path offset signature, path.Proper → memo.find (path.text, offset) = some signature →
    box.answer path offset = .ok (.ok signature)

theorem sound_nil (box : Toolbox) : box.Sound [] := nofun

structure Repeats (box : Toolbox) (a : Action α) (s : Session) : Prop where
  result : (a.outcome s).1 = (a.outcome {}).1
  diagnostics :
    (a.outcome s).2.diagnostics = s.diagnostics ++ (a.outcome {}).2.diagnostics
  calls : box.settings.cacheLookups = false →
    (a.outcome s).2.calls = s.calls ++ (a.outcome {}).2.calls
  memo : box.Sound (a.outcome s).2.memo

theorem repeats_pure (x : α) {s : Session} (sound : box.Sound s.memo) :
    box.Repeats (pure x) s :=
  ⟨rfl, (List.append_nil _).symm, fun _ => (List.append_nil _).symm, sound⟩

theorem repeats_note {e : Event} {s : Session} (sound : box.Sound s.memo) :
    box.Repeats (Action.happen e) s := by
  refine ⟨rfl, ?_, fun _ => ?_, sound⟩
  · rw [Action.outcome_happen, Action.outcome_happen, Session.diagnostics_add,
      Session.diagnostics_add]
    rfl
  · rw [Action.outcome_happen, Action.outcome_happen, Session.calls_add, Session.calls_add]
    rfl

theorem repeats_bind {a : Action α} {f : α → Action β} {s : Session}
    (first : ∀ s, box.Sound s.memo → box.Repeats a s)
    (next : ∀ x s, box.Sound s.memo → box.Repeats (f x) s) (sound : box.Sound s.memo) :
    box.Repeats (a >>= f) s := by
  obtain ⟨result, diagnostics, calls, memo⟩ := first s sound
  -- The fresh run leaves a sound memo too, so the second part, which starts from two
  -- sessions, can be compared with its own fresh run on both sides.
  obtain ⟨-, -, -, fresh⟩ := first {} (sound_nil box)
  cases reached : a.outcome s with
  | mk r t =>
    cases start : a.outcome {} with
    | mk r' t' =>
      rw [reached] at result diagnostics calls memo
      rw [start] at result diagnostics calls fresh
      cases result
      cases r with
      | error why =>
        have failed := Action.outcome_bind_of_error (f := f) reached
        have failed' := Action.outcome_bind_of_error (f := f) start
        constructor
        · rw [failed, failed']
        · rw [failed, failed']
          exact diagnostics
        · rw [failed, failed']
          exact calls
        · rw [failed]
          exact memo
      | ok x =>
        have passed := Action.outcome_bind_of_ok (f := f) reached
        have passed' := Action.outcome_bind_of_ok (f := f) start
        have later := next x t memo
        have later' := next x t' fresh
        constructor
        · rw [passed, passed', later.result, later'.result]
        · rw [passed, passed', later.diagnostics, later'.diagnostics, ← List.append_assoc]
          exact congrArg (· ++ _) diagnostics
        · intro direct
          rw [passed, passed', later.calls direct, later'.calls direct, ← List.append_assoc]
          exact congrArg (· ++ _) (calls direct)
        · rw [passed]
          exact later.memo

theorem repeats_ask (stateless : box.tool.Stateless) (call : Call) {s : Session}
    (sound : box.Sound s.memo) : box.Repeats (box.ask call) s := by
  constructor
  · rw [outcome_ask, outcome_ask, stateless s.calls]
  · rw [diagnostics_ask, diagnostics_ask]
    exact (List.append_nil _).symm
  · intro _
    rw [calls_ask, calls_ask]
    rfl
  · rw [memo_ask]
    exact sound

theorem repeats_request (stateless : box.tool.Stateless) (path : Path) (offset : Int)
    {s : Session} (sound : box.Sound s.memo) : box.Repeats (box.request path offset) s := by
  obtain ⟨t, reached, memo, calls, diagnostics⟩ := outcome_request box path offset s
  obtain ⟨t', start, -, calls', diagnostics'⟩ := outcome_request box path offset {}
  constructor
  · rw [reached, start, stateless s.calls]
  · rw [reached, start, diagnostics, diagnostics']
    exact (List.append_nil _).symm
  · intro _
    rw [reached, start, calls, calls']
    rfl
  · rw [reached, memo]
    exact sound

theorem sound_remember {path : Path} {offset : Int} {signature : Signature} {memo : Memo}
    (sound : box.Sound memo) (proper : path.Proper)
    (given : box.answer path offset = .ok (.ok signature)) :
    box.Sound (memo ++ [((path.text, offset), signature)]) := by
  intro path' offset' found proper' h
  have kept := Memo.find_append_toList memo (path.text, offset) (path'.text, offset')
    (some signature)
  rcases Option.or_eq_some_iff.mp (kept.symm.trans h) with old | ⟨-, new⟩
  · exact sound path' offset' found proper' old
  · split_ifs at new with same
    rw [Prod.mk.injEq] at same
    rw [← Path.text_injective proper proper' same.1, ← same.2, given, Option.some.inj new]

/-- With lookups kept, a lookup finds and notes the same as the request in its place. -/
theorem outcome_lookup (stateless : box.tool.Stateless) {path : Path} (proper : path.Proper)
    (offset : Int) (keeps : box.settings.cacheLookups = true) {s : Session}
    (sound : box.Sound s.memo) :
    ((box.lookup path offset).outcome s).1 = box.answer path offset ∧
      ((box.lookup path offset).outcome s).2.diagnostics = s.diagnostics ∧
      box.Sound ((box.lookup path offset).outcome s).2.memo := by
  cases found : s.memo.find (path.text, offset) with
  | some signature =>
    rw [outcome_lookup_of_some keeps found]
    exact ⟨(sound path offset signature proper found).symm, rfl, sound⟩
  | none =>
    obtain ⟨t, reached, memo, -, diagnostics⟩ := outcome_request box path offset s
    rw [stateless s.calls [], ← answer] at reached
    rw [outcome_lookup_of_none keeps found, reached]
    rw [← memo] at sound
    cases given : box.answer path offset with
    | error why => exact ⟨rfl, diagnostics, sound⟩
    | ok result =>
      cases result with
      | error why => exact ⟨rfl, diagnostics, sound⟩
      | ok signature => exact ⟨rfl, diagnostics, sound_remember sound proper given⟩

theorem repeats_lookup (stateless : box.tool.Stateless) {path : Path} (proper : path.Proper)
    (offset : Int) {s : Session} (sound : box.Sound s.memo) :
    box.Repeats (box.lookup path offset) s := by
  cases keeps : box.settings.cacheLookups with
  | false =>
    rw [lookup_of_not_keeps keeps]
    exact repeats_request stateless path offset sound
  | true =>
    obtain ⟨result, diagnostics, memo⟩ := outcome_lookup stateless proper offset keeps sound
    obtain ⟨result', diagnostics', -⟩ :=
      outcome_lookup stateless proper offset keeps (s := {}) (sound_nil box)
    refine ⟨result.trans result'.symm, ?_, fun direct => ?_, memo⟩
    · rw [diagnostics, diagnostics']
      exact (List.append_nil _).symm
    · rw [keeps] at direct
      cases direct

/-- Work with a tool without a memory goes as it does from a fresh session. -/
theorem Work.repeats (stateless : box.tool.Stateless) {a : Action α} (work : box.Work a) :
    ∀ s, box.Sound s.memo → box.Repeats a s := by
  induction work with
  | pure x => exact fun _ => repeats_pure x
  | bind _ _ first next => exact fun _ => repeats_bind first next
  | note e silent => exact fun _ => repeats_note
  | ask path => exact fun _ => repeats_ask stateless (.tree path)
  | lookup path proper offset => exact fun _ => repeats_lookup stateless proper offset

def Answers (box : Toolbox) (a : Action α) : Prop :=
  ∀ s, ∃ asked, (a.outcome s).2.calls = s.calls ++ asked ∧
    ((∃ x, (a.outcome s).1 = .ok x) ↔ ∀ call ∈ asked, box.Heard call)

theorem heardAll_iff_of_stateless (stateless : box.tool.Stateless) (before calls : List Call) :
    box.HeardAll before calls ↔ ∀ call ∈ calls, box.Heard call := by
  induction calls generalizing before with
  | nil => simp [HeardAll]
  | cons call calls ih =>
    rw [HeardAll, ih, List.forall_mem_cons, Heard, stateless before []]

theorem Work.accounts {a : Action α} (work : box.Work a) (s : Session) :
    box.Accounts a s fun _ _ => True := by
  induction work generalizing s with
  | pure x => exact accounts_pure trivial
  | bind _ _ first next => exact accounts_bind (first s) fun x _ t _ _ => next x t
  | note e silent => exact (accounts_note silent).mono fun _ _ _ => trivial
  | ask path => exact (accounts_ask box s path).mono fun _ _ _ => trivial
  | lookup path proper offset => exact (accounts_lookup box s path offset).mono fun _ _ _ => trivial

theorem Work.answers (stateless : box.tool.Stateless) {a : Action α} (work : box.Work a) :
    box.Answers a := by
  intro s
  obtain ⟨tale, follows, ends⟩ := work.accounts s
  have heard := heardAll_iff_of_stateless stateless s.calls tale.calls
  exact ⟨tale.calls, follows.calls, ends.returns_iff.1.trans heard⟩

inductive Starts (box : Toolbox) (path : Path) : {α : Type} → Action α → Prop
  | ask : Starts box path (box.ask (.tree path))
  | bind {α β : Type} {a : Action α} {f : α → Action β} (first : Starts box path a)
    (next : ∀ x, Work box (f x)) : Starts box path (a >>= f)
  | after {α : Type} {e : Event} (silent : e.call? = none) {f : Unit → Action α}
    (next : Starts box path (f ())) : Starts box path (Action.happen e >>= f)

theorem Starts.work {path : Path} {a : Action α} (starts : box.Starts path a) : box.Work a := by
  induction starts with
  | ask => exact .ask path
  | bind _ next first => exact .bind first next
  | after silent _ next => exact .bind (.note _ silent) fun _ => next

theorem Starts.calls (stateless : box.tool.Stateless) {path : Path} {a : Action α}
    (starts : box.Starts path a) :
    ∀ s, ∃ more, (a.outcome s).2.calls = s.calls ++ .tree path :: more := by
  induction starts with
  | ask => exact fun s => ⟨[], calls_ask box (.tree path) s⟩
  | @bind _ _ a f _ next first =>
    intro s
    obtain ⟨more, calls⟩ := first s
    cases reached : a.outcome s with
    | mk result t =>
      rw [reached] at calls
      cases result with
      | error why =>
        rw [Action.outcome_bind_of_error reached]
        exact ⟨more, calls⟩
      | ok x =>
        obtain ⟨later, calls', -⟩ := (next x).answers stateless t
        rw [Action.outcome_bind_of_ok reached]
        exact ⟨more ++ later, by rw [calls', calls, List.append_assoc, List.cons_append]⟩
  | @after _ e silent f _ next =>
    intro s
    obtain ⟨more, calls⟩ := next (s.add e)
    refine ⟨more, ?_⟩
    rw [Action.outcome_bind_of_ok (Action.outcome_happen e s), calls, Session.calls_add,
      List.filterMap_cons_none silent]
    exact congrArg (· ++ _) (List.append_nil _)

end ModuleStubs.Toolbox
