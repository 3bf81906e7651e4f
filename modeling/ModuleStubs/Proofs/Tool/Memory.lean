import ModuleStubs.Proofs.Tool.Outcomes

/-! Sequences of lookups with one toolbox. What is kept for a place is the first signature
that a reply has given for it, so a lookup is answered from the history of the calls alone;
with a tool that answers by place, keeping signatures changes no result. -/

namespace ModuleStubs

/-- Whether the reply to a request follows from the text of its path and its offset. -/
def Tool.AnswersByPlace (tool : Tool) : Prop :=
  ∀ before other path path' offset, path.text = path'.text →
    tool before (.request path offset) = tool other (.request path' offset)

structure Place where
  path : Path
  offset : Option Int

def Place.request? (place : Place) : Option Call := place.offset.map (.request place.path ·)

namespace Toolbox

def keeping (box : Toolbox) (keep : Bool) : Toolbox :=
  { box with settings := { box.settings with cacheLookups := keep } }

def resolveAll (box : Toolbox) : List Place → Session →
    List (Except Abort (Except ToolFault Signature)) × Session
  | [], s => ([], s)
  | place :: places, s =>
    let first := (box.resolve place.path place.offset).outcome s
    let rest := box.resolveAll places first.2
    (first.1 :: rest.1, rest.2)

def shown (box : Toolbox) (result : Except Abort (Except ToolFault Signature)) :
    Except Abort (Except String Signature) :=
  result.map fun found => found.mapError (·.message box.settings)

def success : Except Abort (Except ToolFault Signature) → Option Signature
  | .ok (.ok signature) => some signature
  | _ => none

def success? (box : Toolbox) (key : String × Int) (before : List Call) : Call → Option Signature
  | .tree _ => none
  | .request path offset =>
    if (path.text, offset) = key then
      success (box.requestResult path offset (box.tool before (.request path offset)))
    else none

/-- The first signature that calls give for a key, the calls before them given. -/
def firstSuccess? (box : Toolbox) (key : String × Int) :
    (before calls : List Call) → Option Signature
  | _, [] => none
  | before, call :: calls =>
    (box.success? key before call).or (box.firstSuccess? key (before ++ [call]) calls)

variable {box : Toolbox}

theorem firstSuccess?_snoc (key : String × Int) (before calls : List Call) (call : Call) :
    box.firstSuccess? key before (calls ++ [call]) =
      (box.firstSuccess? key before calls).or (box.success? key (before ++ calls) call) := by
  induction calls generalizing before with
  | nil => simp [firstSuccess?]
  | cons first calls ih =>
    have later := ih (before ++ [first])
    rw [List.append_assoc, List.singleton_append] at later
    rw [List.cons_append, firstSuccess?, later, firstSuccess?, Option.or_assoc]

theorem eq_ok_of_success {result : Except Abort (Except ToolFault Signature)}
    {signature : Signature} (h : success result = some signature) :
    result = .ok (.ok signature) := by
  unfold success at h
  split at h
  · cases h
    rfl
  · cases h

theorem exists_of_firstSuccess? {key : String × Int} {before calls : List Call}
    {signature : Signature} (h : box.firstSuccess? key before calls = some signature) :
    ∃ earlier path offset, (path.text, offset) = key ∧
      box.requestResult path offset (box.tool earlier (.request path offset)) =
        .ok (.ok signature) := by
  induction calls generalizing before with
  | nil => cases h
  | cons call calls ih =>
    rw [firstSuccess?] at h
    rcases Option.or_eq_some_iff.mp h with here | ⟨-, later⟩
    · cases call with
      | tree path => cases here
      | request path offset =>
        rw [success?] at here
        split_ifs at here with same
        exact ⟨before, path, offset, same, eq_ok_of_success here⟩
    · exact ih later

/-- A session after lookups that began with a history of calls: what is kept for a key is
the first signature that the calls since then have given for it. -/
def Remembers (box : Toolbox) (start : List Call) (s : Session) : Prop :=
  ∃ asked, s.calls = start ++ asked ∧ ∀ key, s.memo.find key = box.firstSuccess? key start asked

theorem remembers_fresh (box : Toolbox) (trace : List Event) :
    box.Remembers ({ trace := trace } : Session).calls { trace := trace } :=
  ⟨[], (List.append_nil _).symm, fun _ => rfl⟩

theorem outcome_lookup_of_missing (keeps : box.settings.cacheLookups = true) {path : Path}
    {offset : Int} {s : Session} (missing : s.memo.find (path.text, offset) = none) :
    ∃ t, (box.lookup path offset).outcome s =
        (box.requestResult path offset (box.tool s.calls (.request path offset)), t) ∧
      t.calls = s.calls ++ [.request path offset] ∧ t.diagnostics = s.diagnostics ∧
      t.memo = s.memo ++ (success (box.requestResult path offset
        (box.tool s.calls (.request path offset)))).toList.map ((path.text, offset), ·) := by
  obtain ⟨t, reached, memo, calls, diagnostics⟩ := outcome_request box path offset s
  have same : t.memo = s.memo ++ [] := memo.trans (List.append_nil _).symm
  rw [outcome_lookup_of_none keeps missing, reached]
  cases box.requestResult path offset (box.tool s.calls (.request path offset)) with
  | error why => exact ⟨t, rfl, calls, diagnostics, same⟩
  | ok result =>
    cases result with
    | error why => exact ⟨t, rfl, calls, diagnostics, same⟩
    | ok signature =>
      exact ⟨t.remember (path.text, offset) signature, rfl, calls, diagnostics,
        congrArg (· ++ _) memo⟩

theorem remembers_lookup (keeps : box.settings.cacheLookups = true) {start : List Call}
    {s : Session} (held : box.Remembers start s) (path : Path) (offset : Int) :
    box.Remembers start ((box.lookup path offset).outcome s).2 := by
  obtain ⟨asked, calls, memo⟩ := held
  cases found : s.memo.find (path.text, offset) with
  | some signature =>
    rw [outcome_lookup_of_some keeps found]
    exact ⟨asked, calls, memo⟩
  | none =>
    obtain ⟨t, reached, calls', -, memo'⟩ := outcome_lookup_of_missing keeps found
    rw [reached]
    refine ⟨asked ++ [.request path offset], ?_, fun key => ?_⟩
    · rw [calls', calls, List.append_assoc]
    · rw [memo', Memo.find_append_toList, memo key, calls, firstSuccess?_snoc]
      rfl

theorem remembers_resolve (keeps : box.settings.cacheLookups = true) {start : List Call}
    {s : Session} (held : box.Remembers start s) (place : Place) :
    box.Remembers start ((box.resolve place.path place.offset).outcome s).2 := by
  obtain ⟨path, offset⟩ := place
  cases offset with
  | none => exact held
  | some offset => exact remembers_lookup keeps held path offset

theorem remembers_resolveAll (keeps : box.settings.cacheLookups = true) {start : List Call}
    (places : List Place) {s : Session} (held : box.Remembers start s) :
    box.Remembers start (box.resolveAll places s).2 := by
  induction places generalizing s with
  | nil => exact held
  | cons place places ih => exact ih (remembers_resolve keeps held place)

theorem calls_resolve_of_not_keeps (direct : box.settings.cacheLookups = false) (place : Place)
    (s : Session) :
    ((box.resolve place.path place.offset).outcome s).2.calls =
      s.calls ++ place.request?.toList := by
  obtain ⟨path, offset⟩ := place
  cases offset with
  | none => exact (List.append_nil _).symm
  | some offset =>
    obtain ⟨t, reached, -, calls, -⟩ := outcome_request box path offset s
    rw [resolve, lookup_of_not_keeps direct, reached, calls]
    rfl

theorem calls_resolveAll_of_not_keeps (direct : box.settings.cacheLookups = false)
    (places : List Place) (s : Session) :
    (box.resolveAll places s).2.calls = s.calls ++ places.filterMap Place.request? := by
  induction places generalizing s with
  | nil => exact (List.append_nil _).symm
  | cons place places ih =>
    have first := calls_resolve_of_not_keeps direct place s
    simp only [resolveAll]
    rw [ih, first, List.append_assoc]
    cases called : place.request? <;> simp [called]

/-- The path of a request only matters to the message of a fault. -/
theorem requestResult_of_ok {path path' : Path} {offset offset' : Int} {reply : Reply}
    {signature : Signature} (h : box.requestResult path offset reply = .ok (.ok signature)) :
    box.requestResult path' offset' reply = .ok (.ok signature) := by
  unfold requestResult at h ⊢
  cases heard : box.read "request" reply with
  | error why => rw [heard] at h; cases h
  | ok said =>
    rw [heard] at h
    cases said with
    | error why => cases h
    | ok value =>
      have found : box.infoResult path offset value = .ok (.ok signature) := h
      change box.infoResult path' offset' value = .ok (.ok signature)
      unfold infoResult at found ⊢
      cases fields : value.fields? with
      | none => rw [fields] at found; cases found
      | some fields' => rw [fields] at found; exact found

def resultAt (box : Toolbox) (place : Place) : Except Abort (Except ToolFault Signature) :=
  match place.offset with
  | none => .ok (.error (.noOffset place.path))
  | some offset =>
    box.requestResult place.path offset (box.tool [] (.request place.path offset))

theorem result_resolve_of_not_keeps (byPlace : box.tool.AnswersByPlace)
    (direct : box.settings.cacheLookups = false) (place : Place) (s : Session) :
    ((box.resolve place.path place.offset).outcome s).1 = box.resultAt place := by
  obtain ⟨path, offset⟩ := place
  cases offset with
  | none => rfl
  | some offset =>
    obtain ⟨t, reached, -⟩ := outcome_request box path offset s
    rw [resolve, lookup_of_not_keeps direct, reached, byPlace s.calls [] path path offset rfl]
    rfl

theorem result_resolve_of_remembers (byPlace : box.tool.AnswersByPlace)
    (keeps : box.settings.cacheLookups = true) {start : List Call} {s : Session}
    (held : box.Remembers start s) (place : Place) :
    ((box.resolve place.path place.offset).outcome s).1 = box.resultAt place := by
  obtain ⟨path, offset⟩ := place
  cases offset with
  | none => rfl
  | some offset =>
    change ((box.lookup path offset).outcome s).1 = _
    cases found : s.memo.find (path.text, offset) with
    | some signature =>
      have kept := found
      obtain ⟨asked, -, memo⟩ := held
      rw [memo] at found
      obtain ⟨earlier, path', offset', same, given⟩ := exists_of_firstSuccess? found
      rw [Prod.mk.injEq] at same
      obtain ⟨text, rfl⟩ := same
      rw [byPlace earlier [] path' path offset' text] at given
      rw [outcome_lookup_of_some keeps kept]
      exact (requestResult_of_ok given).symm
    | none =>
      obtain ⟨t, reached, -⟩ := outcome_lookup_of_missing keeps found
      rw [reached, byPlace s.calls [] path path offset rfl]
      rfl

theorem results_resolveAll_of_not_keeps (byPlace : box.tool.AnswersByPlace)
    (direct : box.settings.cacheLookups = false) (places : List Place) (s : Session) :
    (box.resolveAll places s).1 = places.map box.resultAt := by
  induction places generalizing s with
  | nil => rfl
  | cons place places ih =>
    simp only [resolveAll, List.map_cons]
    rw [ih, result_resolve_of_not_keeps byPlace direct]

theorem results_resolveAll_of_remembers (byPlace : box.tool.AnswersByPlace)
    (keeps : box.settings.cacheLookups = true) {start : List Call} (places : List Place)
    {s : Session} (held : box.Remembers start s) :
    (box.resolveAll places s).1 = places.map box.resultAt := by
  induction places generalizing s with
  | nil => rfl
  | cons place places ih =>
    simp only [resolveAll, List.map_cons]
    rw [ih (remembers_resolve keeps held place), result_resolve_of_remembers byPlace keeps held]

/-- Lookups with a toolbox that keeps signatures, against one that does not: with a tool
that answers by place they give the same, messages included. Whatever the tool does, a
lookup gives the first signature that the calls so far have given for its place, and is
then silent; where there is none it makes one call, of which only a success is kept.
Without keeping, every lookup with an offset makes its call. -/
theorem resolveAll_transparent (box : Toolbox) (trace : List Event) (places : List Place) :
    let start : Session := { trace := trace }
    let keeping := box.keeping true
    let direct := box.keeping false
    let s := (keeping.resolveAll places start).2
    (box.tool.AnswersByPlace →
      (keeping.resolveAll places start).1.map keeping.shown =
        (direct.resolveAll places start).1.map direct.shown) ∧
    (∃ asked, s.calls = start.calls ++ asked ∧ ∀ path offset,
      let next := (keeping.resolve path (some offset)).outcome s
      match keeping.firstSuccess? (path.text, offset) start.calls asked with
      | some signature => next = (.ok (.ok signature), s)
      | none =>
        next.1 = keeping.requestResult path offset (box.tool s.calls (.request path offset)) ∧
        next.2.calls = s.calls ++ [.request path offset] ∧
        ((∀ signature, next.1 ≠ .ok (.ok signature)) → next.2.memo = s.memo)) ∧
    (direct.resolveAll places start).2.calls = start.calls ++ places.filterMap Place.request? := by
  intro start keeping direct s
  have keeps : keeping.settings.cacheLookups = true := rfl
  have asks : direct.settings.cacheLookups = false := rfl
  have fresh : keeping.Remembers start.calls start := remembers_fresh keeping trace
  refine ⟨fun byPlace => ?_, ?_, calls_resolveAll_of_not_keeps asks places start⟩
  · have kept := results_resolveAll_of_remembers
      (show keeping.tool.AnswersByPlace from byPlace) keeps places fresh
    have plain := results_resolveAll_of_not_keeps
      (show direct.tool.AnswersByPlace from byPlace) asks places start
    rw [kept, plain]
    rfl
  · obtain ⟨asked, calls, memo⟩ := remembers_resolveAll keeps places fresh
    refine ⟨asked, calls, fun path offset => ?_⟩
    cases found : keeping.firstSuccess? (path.text, offset) start.calls asked with
    | some signature =>
      exact outcome_lookup_of_some keeps ((memo _).trans found)
    | none =>
      obtain ⟨t, reached, calls', -, memo'⟩ :=
        outcome_lookup_of_missing keeps ((memo _).trans found)
      change (keeping.resolve path (some offset)).outcome s = _ at reached
      simp only [reached]
      refine ⟨rfl, calls', fun failed => ?_⟩
      rw [memo']
      cases given : success (keeping.requestResult path offset
        (keeping.tool s.calls (.request path offset))) with
      | none => exact List.append_nil _
      | some signature => exact absurd (eq_ok_of_success given) (failed signature)

def slowTool : Tool := fun before _ =>
  if before.isEmpty then .timedOut else .output (some "\x7b\x7d")

def slowBox : Toolbox := { tool := slowTool, settings := {} }

def samplePlace : Place := ⟨⟨.relative, ["M.swift"]⟩, some 7⟩

theorem third_lookup_silent :
    ∃ signature s, s = ((slowBox.keeping true).resolveAll
        [samplePlace, samplePlace] { trace := [] }).2 ∧ s.calls.length = 2 ∧
      ((slowBox.keeping true).resolve samplePlace.path (some 7)).outcome s =
        (.ok (.ok signature), s) := by
  obtain ⟨-, ⟨asked, calls, kept⟩, -⟩ :=
    resolveAll_transparent slowBox [] [samplePlace, samplePlace]
  have twice : asked = [.request samplePlace.path 7, .request samplePlace.path 7] := calls.symm
  subst twice
  exact ⟨_, _, rfl, rfl, kept samplePlace.path 7⟩

end Toolbox

end ModuleStubs
