import ModuleStubs.Proofs.Tool.Outcomes

/-! Accounts of work: the calls that it makes and the soft failures that it notes, in view
of the calls before it. Work has a result exactly if the replies to all its calls can be
read, whatever the tool does. -/

namespace ModuleStubs

/-- Replies that end all work: the tool may not be run, or it prints what is no text or a number
that is too long to be read. -/
inductive Reply.Unread : Reply → Prop
  | denied : Unread .denied
  | undecodable (why : Text.Utf8.Broken) : Unread (.undecodable why)
  | number {text : String} {why : Text.Numeral.Fault}
    (long : Json.read text = .error (.number why)) : Unread (.output (some text))

inductive Reply.TornAnswer : Reply → Prop
  | intro {text : String} {fields : List (Wording × Json)} {declared : Wording} {why : Torn}
    (read : Json.read text = .ok (.obj fields))
    (described : CursorInfo.annotation? fields = some declared)
    (torn : declared.text = .error why) : TornAnswer (.output (some text))

/-- A torn declaration ends the work only where a declaration is asked for. -/
def Reply.EndsWork : Call → Reply → Prop
  | .tree _, reply => reply.Unread
  | .request _ _, reply => reply.Unread ∨ reply.TornAnswer

namespace Reply

theorem not_endsWork_missing (call : Call) : ¬ missing.EndsWork call := by
  cases call with
  | tree path => exact nofun
  | request path offset => exact not_or.mpr ⟨nofun, nofun⟩

theorem not_endsWork_timedOut (call : Call) : ¬ timedOut.EndsWork call := by
  cases call with
  | tree path => exact nofun
  | request path offset => exact not_or.mpr ⟨nofun, nofun⟩

theorem not_endsWork_of_read {text : String} {value : Json} (read : Json.read text = .ok value)
    (path : Path) : ¬ (output (some text)).EndsWork (.tree path) := by
  rintro ⟨⟩
  next long => cases read.symm.trans long

end Reply

structure Tale where
  calls : List Call := []
  notes : List Diagnostic := []

namespace Tale

instance : Append Tale := ⟨fun a b => ⟨a.calls ++ b.calls, a.notes ++ b.notes⟩⟩

@[simp] theorem calls_append (a b : Tale) : (a ++ b).calls = a.calls ++ b.calls := rfl

@[simp] theorem notes_append (a b : Tale) : (a ++ b).notes = a.notes ++ b.notes := rfl

@[simp] theorem append_empty (a : Tale) : a ++ ({} : Tale) = a := by
  obtain ⟨calls, notes⟩ := a
  change (⟨calls ++ [], notes ++ []⟩ : Tale) = _
  rw [List.append_nil, List.append_nil]

end Tale

structure Session.Follows (s t : Session) (tale : Tale) : Prop where
  calls : t.calls = s.calls ++ tale.calls
  diagnostics : t.diagnostics = s.diagnostics ++ tale.notes

namespace Session

theorem Follows.refl (s : Session) : s.Follows s {} :=
  ⟨(List.append_nil _).symm, (List.append_nil _).symm⟩

theorem Follows.trans {s t u : Session} {first second : Tale} (h : s.Follows t first)
    (k : t.Follows u second) : s.Follows u (first ++ second) := by
  constructor
  · rw [k.calls, h.calls, List.append_assoc, Tale.calls_append]
  · rw [k.diagnostics, h.diagnostics, List.append_assoc, Tale.notes_append]

theorem follows_add_noted (s : Session) (d : Diagnostic) :
    s.Follows (s.add (.noted d)) ⟨[], [d]⟩ :=
  ⟨by rw [calls_add]; rfl, by rw [diagnostics_add]; rfl⟩

theorem follows_add_logged (s : Session) (r : Record) : s.Follows (s.add (.logged r)) {} :=
  ⟨by rw [calls_add]; rfl, by rw [diagnostics_add]; rfl⟩

end Session

theorem Action.outcome_warnings (texts : List Wording) (s : Session) :
    ∃ t, (texts.forM fun text => Action.warn text none).outcome s = (.ok (), t) ∧
      t.memo = s.memo ∧ s.Follows t ⟨[], texts.map fun text => ⟨.warning, text, none⟩⟩ := by
  induction texts generalizing s with
  | nil => exact ⟨s, rfl, rfl, .refl s⟩
  | cons text texts ih =>
    obtain ⟨t, rest, memo, follows⟩ := ih (s.add (.noted ⟨.warning, text, none⟩))
    have first := s.follows_add_noted ⟨.warning, text, none⟩
    refine ⟨t, ?_, memo, first.trans follows⟩
    exact (Action.outcome_bind_of_ok (Action.outcome_warn text none s)).trans rest

theorem Action.outcome_records (rs : List Record) (s : Session) :
    ∃ t, (rs.forM fun r => Action.happen (.logged r)).outcome s = (.ok (), t) ∧
      t.memo = s.memo ∧ s.Follows t {} := by
  induction rs generalizing s with
  | nil => exact ⟨s, rfl, rfl, .refl s⟩
  | cons r rs ih =>
    obtain ⟨t, rest, memo, follows⟩ := ih (s.add (.logged r))
    refine ⟨t, ?_, memo, (s.follows_add_logged r).trans follows⟩
    exact (Action.outcome_bind_of_ok (Action.outcome_happen (.logged r) s)).trans rest

namespace Toolbox

variable {α β : Type} {box : Toolbox}

def HeardAll (box : Toolbox) : (before calls : List Call) → Prop
  | _, [] => True
  | before, call :: calls =>
    ¬ (box.tool before call).EndsWork call ∧ box.HeardAll (before ++ [call]) calls

theorem heardAll_append (before first second : List Call) :
    box.HeardAll before (first ++ second) ↔
      box.HeardAll before first ∧ box.HeardAll (before ++ first) second := by
  induction first generalizing before with
  | nil => simp [HeardAll]
  | cons call first ih =>
    simp only [List.cons_append, HeardAll, ih, and_assoc, List.append_assoc, List.nil_append]

@[simp] theorem heardAll_singleton (before : List Call) (call : Call) :
    box.HeardAll before [call] ↔ ¬ (box.tool before call).EndsWork call := by
  simp [HeardAll]

theorem heardAll_iff (before calls : List Call) :
    box.HeardAll before calls ↔ ∀ earlier call later, calls = earlier ++ call :: later →
      ¬ (box.tool (before ++ earlier) call).EndsWork call := by
  induction calls generalizing before with
  | nil => simp [HeardAll]
  | cons first calls ih =>
    rw [HeardAll, ih]
    constructor
    · rintro ⟨heard, rest⟩ earlier call later same
      cases earlier with
      | nil =>
        cases same
        simpa using heard
      | cons _ earlier =>
        cases same
        simpa using rest earlier call later rfl
    · intro all
      refine ⟨by simpa using all [] first calls rfl, fun earlier call later same => ?_⟩
      have heard := all (first :: earlier) call later (congrArg (first :: ·) same)
      simpa using heard

theorem read_eq_ok_iff (command : String) (reply : Reply) :
    (∃ said, box.read command reply = .ok said) ↔ ¬ reply.Unread := by
  cases reply with
  | output said =>
    cases said with
    | none => exact iff_of_true ⟨_, rfl⟩ nofun
    | some text =>
      cases parsed : Json.read text with
      | ok value =>
        refine iff_of_true ⟨.ok value, by rw [read, parsed]⟩ ?_
        rintro (⟨⟩ | ⟨⟩ | long)
        rw [parsed] at long
        cases long
      | error fault =>
        cases fault with
        | malformed =>
          refine iff_of_true ⟨_, by rw [read, parsed]⟩ ?_
          rintro (⟨⟩ | ⟨⟩ | long)
          rw [parsed] at long
          cases long
        | number why =>
          refine iff_of_false ?_ fun h => h (.number parsed)
          rintro ⟨said, heard⟩
          rw [read, parsed] at heard
          cases heard
  | failure status output errors => exact iff_of_true ⟨_, rfl⟩ nofun
  | undecodable why => exact iff_of_false (fun h => nomatch h) fun h => h (.undecodable why)
  | missing => exact iff_of_true ⟨_, rfl⟩ nofun
  | timedOut => exact iff_of_true ⟨_, rfl⟩ nofun
  | denied => exact iff_of_false (fun h => nomatch h) fun h => h .denied

/-- How work ends that makes the calls of a tale: with a result, if the replies to all of them
can be read, and without one else. -/
def Ended (box : Toolbox) (before : List Call) (post : α → Tale → Prop) :
    Except Abort α → Tale → Prop
  | .ok x, tale => box.HeardAll before tale.calls ∧ post x tale
  | .error _, tale => ¬ box.HeardAll before tale.calls

theorem Ended.after {before : List Call} {told : Tale} (heard : box.HeardAll before told.calls)
    {post : β → Tale → Prop} {result : Except Abort β} {later : Tale}
    (rest : box.Ended (before ++ told.calls) (fun y later => post y (told ++ later)) result later) :
    box.Ended before post result (told ++ later) := by
  cases result with
  | error why =>
    intro all
    exact rest ((heardAll_append before told.calls later.calls).mp all).2
  | ok y =>
    have all := (heardAll_append before told.calls later.calls).mpr ⟨heard, rest.1⟩
    exact ⟨all, rest.2⟩

theorem Ended.mono {before : List Call} {post weaker : α → Tale → Prop} {result : Except Abort α}
    {tale : Tale} (h : box.Ended before post result tale)
    (weaken : ∀ x tale, post x tale → weaker x tale) : box.Ended before weaker result tale := by
  cases result with
  | error why => exact h
  | ok x => exact ⟨h.1, weaken x tale h.2⟩

/-- Work has a result exactly if the replies to its calls can be read. -/
theorem Ended.returns_iff {before : List Call} {post : α → Tale → Prop} {result : Except Abort α}
    {tale : Tale} (h : box.Ended before post result tale) :
    ((∃ x, result = .ok x) ↔ box.HeardAll before tale.calls) ∧
      ∀ x, result = .ok x → post x tale := by
  cases result with
  | error why =>
    have unheard : ¬ box.HeardAll before tale.calls := h
    simp [unheard]
  | ok x =>
    refine ⟨⟨fun _ => h.1, fun _ => ⟨x, rfl⟩⟩, ?_⟩
    rintro _ ⟨⟩
    exact h.2

/-- An account of an action from a session on: what it tells, and with that how it ends. -/
def Accounts (box : Toolbox) (a : Action α) (s : Session) (post : α → Tale → Prop) : Prop :=
  ∃ tale, s.Follows (a.outcome s).2 tale ∧ box.Ended s.calls post (a.outcome s).1 tale

variable {s : Session}

theorem accounts_pure {x : α} {post : α → Tale → Prop} (h : post x {}) :
    box.Accounts (pure x) s post :=
  ⟨{}, .refl s, trivial, h⟩

theorem accounts_bind {a : Action α} {f : α → Action β} {mid : α → Tale → Prop}
    {post : β → Tale → Prop} (first : box.Accounts a s mid)
    (rest : ∀ x told t, t.calls = s.calls ++ told.calls → mid x told →
      box.Accounts (f x) t fun y later => post y (told ++ later)) :
    box.Accounts (a >>= f) s post := by
  obtain ⟨told, follows, ends⟩ := first
  rw [Accounts, Action.outcome_bind]
  cases reached : a.outcome s with
  | mk result t =>
    rw [reached] at follows ends
    cases result with
    | error why => exact ⟨told, follows, ends⟩
    | ok x =>
      obtain ⟨later, follows', ends'⟩ := rest x told t follows.calls ends.2
      rw [follows.calls] at ends'
      exact ⟨told ++ later, follows.trans follows', Ended.after ends.1 ends'⟩

theorem accounts_bind_pure {a : Action α} {f : α → β} {mid : α → Tale → Prop}
    {post : β → Tale → Prop} (first : box.Accounts a s mid)
    (rest : ∀ x told, mid x told → post (f x) told) :
    box.Accounts (a >>= fun x => pure (f x)) s post := by
  refine accounts_bind first fun x told t _ h => accounts_pure ?_
  rw [Tale.append_empty]
  exact rest x told h

theorem accounts_note {e : Event} (silent : e.call? = none) :
    box.Accounts (Action.happen e) s fun _ tale => tale = ⟨[], e.diagnostic?.toList⟩ := by
  refine ⟨⟨[], e.diagnostic?.toList⟩, ⟨?_, ?_⟩, trivial, rfl⟩
  · rw [Action.outcome_happen, Session.calls_add, List.filterMap_cons_none silent]
    rfl
  · rw [Action.outcome_happen, Session.diagnostics_add]
    cases e <;> rfl

theorem accounts_after {e : Event} (silent : e.call? = none) {f : Unit → Action β}
    {post : β → Tale → Prop}
    (rest : ∀ t, t.calls = s.calls →
      box.Accounts (f ()) t fun y later => post y (⟨[], e.diagnostic?.toList⟩ ++ later)) :
    box.Accounts (Action.happen e >>= f) s post := by
  refine accounts_bind (accounts_note silent) ?_
  rintro - told t calls rfl
  exact rest t (calls.trans (List.append_nil _))

theorem accounts_last {e : Event} (silent : e.call? = none) {y : β} {post : β → Tale → Prop}
    (h : post y ⟨[], e.diagnostic?.toList⟩) :
    box.Accounts (Action.happen e >>= fun _ => pure y) s post := by
  refine accounts_after silent fun t _ => accounts_pure ?_
  rw [Tale.append_empty]
  exact h

theorem Accounts.mono {a : Action α} {post weaker : α → Tale → Prop}
    (h : box.Accounts a s post) (weaken : ∀ x tale, post x tale → weaker x tale) :
    box.Accounts a s weaker := by
  obtain ⟨tale, follows, ends⟩ := h
  exact ⟨tale, follows, ends.mono weaken⟩

section

variable (box) (call : Call) (before : List Call) (path : Path) (offset : Int) (s)

theorem Ended.of_call {result : Except Abort α}
    (legible : (∃ x, result = .ok x) ↔ ¬ (box.tool before call).EndsWork call) :
    box.Ended before (fun x tale => result = .ok x ∧ tale = ⟨[call], []⟩) result ⟨[call], []⟩ := by
  rw [← heardAll_singleton] at legible
  cases result with
  | error why => exact fun heard => nomatch legible.mpr heard
  | ok x => exact ⟨legible.mp ⟨x, rfl⟩, rfl, rfl⟩

theorem accounts_ask : box.Accounts (box.ask (.tree path)) s fun said tale =>
    box.read "structure" (box.tool s.calls (.tree path)) = .ok said ∧
      tale = ⟨[.tree path], []⟩ := by
  have follows : s.Follows ((box.ask (.tree path)).outcome s).2 ⟨[.tree path], []⟩ :=
    ⟨calls_ask box _ s, (diagnostics_ask box _ s).trans (List.append_nil _).symm⟩
  refine ⟨⟨[.tree path], []⟩, follows, ?_⟩
  rw [outcome_ask]
  exact Ended.of_call box _ s.calls (read_eq_ok_iff "structure" _)

variable {box} in
theorem eq_output_of_read {command : String} {reply : Reply} {value : Json}
    (heard : box.read command reply = .ok (.ok value)) :
    ∃ text, reply = .output (some text) ∧ Json.read text = .ok value := by
  unfold read at heard
  split at heard
  · cases heard
  · next text =>
    refine ⟨text, rfl, ?_⟩
    split at heard <;> cases heard
    assumption
  all_goals cases heard

theorem infoResult_eq_ok_iff (value : Json) :
    (∃ result, box.infoResult path offset value = .ok result) ↔
      ¬ ∃ fields declared why, value = .obj fields ∧
        CursorInfo.annotation? fields = some declared ∧ declared.text = .error why := by
  cases value with
  | obj fields =>
    unfold infoResult CursorInfo.signature
    cases described : CursorInfo.annotation? fields with
    | none => simp [Json.fields?, described]
    | some declared =>
      cases read : declared.text with
      | error why => simp [Json.fields?, described, read]
      | ok text => cases parsed : Xml.parse? text <;> simp [Json.fields?, described, read, parsed]
  | _ =>
    refine iff_of_true ⟨_, rfl⟩ ?_
    rintro ⟨_, _, _, ⟨⟩, -⟩

/-- A request comes to something exactly if its reply can be read, with the declaration in it. -/
theorem requestResult_eq_ok_iff (reply : Reply) :
    (∃ result, box.requestResult path offset reply = .ok result) ↔
      ¬ reply.EndsWork (.request path offset) := by
  have legible : (∃ said, box.read "request" reply = .ok said) ↔ ¬ reply.Unread :=
    read_eq_ok_iff "request" reply
  rw [Reply.EndsWork, not_or, ← legible, requestResult]
  cases heard : box.read "request" reply with
  | error why => simp
  | ok said =>
    cases said with
    | error why =>
      refine iff_of_true ⟨_, rfl⟩ ⟨⟨_, rfl⟩, ?_⟩
      rintro ⟨read, described, torn⟩
      rw [Toolbox.read, read] at heard
      cases heard
    | ok value =>
      obtain ⟨text, rfl, parsed⟩ := eq_output_of_read heard
      refine (infoResult_eq_ok_iff box path offset value).trans ?_
      refine (not_congr ?_).trans (and_iff_right ⟨_, rfl⟩).symm
      constructor
      · rintro ⟨fields, declared, why, rfl, described, torn⟩
        exact .intro parsed described torn
      · rintro ⟨read, described, torn⟩
        rw [parsed] at read
        exact ⟨_, _, _, Except.ok.inj read, described, torn⟩

theorem accounts_request : box.Accounts (box.request path offset) s fun result tale =>
    box.requestResult path offset (box.tool s.calls (.request path offset)) = .ok result ∧
      tale = ⟨[.request path offset], []⟩ := by
  obtain ⟨t, reached, -, calls, diagnostics⟩ := outcome_request box path offset s
  rw [Accounts, reached]
  refine ⟨⟨[.request path offset], []⟩, ⟨calls, diagnostics.trans (List.append_nil _).symm⟩, ?_⟩
  exact Ended.of_call box _ s.calls (requestResult_eq_ok_iff box path offset _)

def treeResult (reply : Reply) : Except Abort (Except ToolFault Node) :=
  (box.read "structure" reply).map fun said =>
    said.bind fun value => (Node.ofJson? value).elim (.error (.noTree path)) .ok

theorem accounts_tree : box.Accounts (box.tree path) s fun result tale =>
    box.treeResult path (box.tool s.calls (.tree path)) = .ok result ∧
      tale = ⟨[.tree path], []⟩ := by
  refine accounts_bind (accounts_ask box s path) ?_
  rintro said told t - ⟨heard, rfl⟩
  rw [treeResult, heard]
  cases said with
  | error why => exact accounts_pure ⟨rfl, rfl⟩
  | ok value =>
    cases found : Node.ofJson? value with
    | none =>
      simp only [found]
      exact accounts_pure ⟨by simp [Except.map, Except.bind, found], rfl⟩
    | some node =>
      simp only [found]
      exact accounts_pure ⟨by simp [Except.map, Except.bind, found], rfl⟩

/-- A lookup finds a kept signature and tells nothing, or makes its request. -/
inductive LookedUp (before : List Call) : Except ToolFault Signature → Tale → Prop
  | kept (signature : Signature) (keeps : box.settings.cacheLookups = true) :
    LookedUp before (.ok signature) {}
  | asked {result : Except ToolFault Signature}
    (given : box.requestResult path offset (box.tool before (.request path offset)) = .ok result) :
    LookedUp before result ⟨[.request path offset], []⟩

theorem accounts_lookup :
    box.Accounts (box.lookup path offset) s (box.LookedUp path offset s.calls) := by
  have asking : box.Accounts (box.request path offset) s (box.LookedUp path offset s.calls) := by
    refine (accounts_request box s path offset).mono ?_
    rintro result tale ⟨given, rfl⟩
    exact .asked given
  cases keeps : box.settings.cacheLookups with
  | false =>
    rw [lookup_of_not_keeps keeps]
    exact asking
  | true =>
    cases found : s.memo.find (path.text, offset) with
    | some signature =>
      rw [Accounts, outcome_lookup_of_some keeps found]
      exact ⟨{}, .refl s, trivial, .kept signature keeps⟩
    | none =>
      obtain ⟨tale, follows, ends⟩ := asking
      rw [Accounts, outcome_lookup_of_none keeps found]
      -- Keeping the signature is neither a call nor a note.
      cases reached : (box.request path offset).outcome s with
      | mk result t =>
        rw [reached] at follows ends
        cases result with
        | error why => exact ⟨tale, follows, ends⟩
        | ok result =>
          cases result with
          | error why => exact ⟨tale, follows, ends⟩
          | ok signature => exact ⟨tale, ⟨follows.calls, follows.diagnostics⟩, ends⟩

end

end Toolbox

end ModuleStubs
