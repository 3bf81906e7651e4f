import ModuleStubs.Proofs.Stub.Refusals
import ModuleStubs.Proofs.Stub.Repetition

/-! Runs that leave the template of the project alone. All modules are then handed the texts that
the template gives on the disk before the run. -/

namespace ModuleStubs.StubOutput

variable {o now : StubOutput} {m : Definition} {ms : List Definition} {unit : StubUnit}
  {d e f : Disk} {w v : World} {log : Option Location} {hs : List Handed}

/-- Where the path of the template leads in the end, it has led from the start. -/
def Steady (o : StubOutput) (d e : Disk) : Prop :=
  ∀ t l, o.templates = some t → e.find t.path = .ok l → d.find t.path = .ok l

theorem Steady.mono (steady : o.Steady d f) (kept : Disk.Keeps d e) : o.Steady e f :=
  fun t l own found => Disk.find_of_keeps kept (steady t l own found)

/-- Only writes to the place of the template make a difference to the texts. -/
theorem Leaves.alike (left : o.Leaves log hs d e) (later : Disk.Keeps e f) (steady : o.Steady d f)
    (spared : ∀ t l, o.templates = some t → f.find t.path = .ok l → log ≠ some l ∧
      ∀ h ∈ hs, h.isOpened = true → f.find (o.path h.definition) ≠ .ok l) : o.Alike d e := by
  intro t own
  refine Templates.alike_of_item? (fun l => ⟨?_, Disk.find_of_keeps left.toKeeps⟩) fun l found => ?_
  · exact fun found => steady t l own (Disk.find_of_keeps later found)
  · have last := Disk.find_of_keeps (left.toKeeps.trans later) found
    obtain ⟨off, apart⟩ := spared t l own last
    rcases left.item l off with same | ⟨empty, made, -⟩ | ⟨h, mem, bytes, opened, leads, -⟩
    · exact .inl same
    · exact .inr ⟨empty, made⟩
    · have isOpened : h.isOpened = true := by rw [Handed.isOpened, opened]; rfl
      exact absurd (Disk.find_of_keeps later leads) (apart h mem isOpened)

theorem Placed.handed_eq {text : Option Wording} {result : Except WriteFault Unit}
    (placed : o.Placed (o.path m) unit d text result e) :
    o.handed m unit d = ⟨m, text, result⟩ := by
  rw [handed, ← placed.text_eq, placed.place_eq]

theorem Placed.keeps_made {p : Path} {text : Option Wording} {result : Except WriteFault Unit}
    (placed : o.Placed p unit d text result e) :
    Disk.Keeps (d.makeDirectories o.directory).2 e := by
  cases placed with
  | blocked failed =>
    rw [failed]
    exact .refl e
  | unlaid made =>
    rw [made]
    exact .refl e
  | refused made =>
    rw [made]
    exact .refl e
  | torn made laid opened =>
    rw [made]
    exact Disk.keeps_put (Disk.fileLocation_eq_ok opened).2 _
  | stored made laid opened =>
    rw [made]
    exact Disk.keeps_put (Disk.fileLocation_eq_ok opened).2 _

theorem Leaves.of_amid (amid : o.Amid d now) (left : now.Leaves log hs e f) :
    o.Leaves log hs e f := by
  rcases amid with rfl | rfl
  · exact left
  · exact ⟨left.toKeeps, left.item⟩

theorem isStored_of_isOpened {h : Handed} (opened : h.isOpened = true) (survived : h.fault = none) :
    h.isStored = true := by
  rw [Handed.isOpened, Handed.left?] at opened
  rw [Handed.fault] at survived
  rw [Handed.isStored]
  rcases result : h.result with why | _
  · rw [result] at opened survived
    cases why with
    | torn why => cases survived
    | _ => cases opened
  · rfl

theorem fault_of_write {here : Bool} {text : Option Wording} {result : Except WriteFault Unit}
    (tried : o.Placed (o.path m) unit w.disk text result e)
    (writing : (o.write m unit).outcome w = (.ok here, v)) :
    (Handed.mk m text result).fault = none := by
  rw [Option.eq_none_iff_forall_ne_some]
  intro why fatal
  rw [write_of_fatal tried fatal] at writing
  cases writing

theorem Leaves.alike_of_spares {front : List Handed} (left : o.Leaves log front d e)
    (later : Disk.Keeps e f) (steady : o.Steady d f)
    (spares : o.Spares log (o.storedPaths (front ++ hs)) f)
    (survived : ∀ h ∈ front, h.fault = none) : o.Alike d e := by
  refine left.alike later steady fun t l own found => ?_
  refine ⟨fun lead => (spares t own).2 l lead found, fun h mem opened leads => ?_⟩
  have stored := isStored_of_isOpened opened (survived h mem)
  refine (spares t own).1 (o.path h.definition) ?_ (leads.trans found.symm)
  exact mem_storedPaths.mpr ⟨h, List.mem_append_left hs mem, stored, rfl⟩

theorem Placed.text_of_alike {p : Path} {text : Option Wording} {result : Except WriteFault Unit}
    (placed : now.Placed p unit e text result f) (amid : o.Amid d now)
    (alike : o.Alike d (e.makeDirectories o.directory).2) :
    text = (o.render d unit).toOption ∨ text = none ∧ ∃ why, result = .error (.disk why) := by
  have shown := placed.text_eq
  have stored := placed.place_eq
  rw [← amid.directory] at alike
  rcases made : e.makeDirectories now.directory with ⟨why | _, middle⟩
  · rw [text?_of_not_made made] at shown
    rw [place, made] at stored
    cases stored
    exact .inr ⟨shown, why, rfl⟩
  · rw [text?_of_made made] at shown
    rw [made] at alike
    exact .inl (shown.trans (congrArg _ (congrFun (amid.render alike) unit)))

/-- A run that leaves the template alone hands to each write the text that is made on the first
disk. Where the output directory cannot be made, there is none. -/
theorem laid_of_handing {front : List Handed} (amid : o.Amid d now)
    (left : o.Leaves (Channel.log w.channel) front d w.disk)
    (survived : ∀ h ∈ front, h.fault = none)
    (ready : Channel.Ready w.channel w.disk) (done : (now.handing ms).outcome w = (.ok hs, v))
    (spares : o.Spares (Channel.log w.channel) (o.storedPaths (front ++ hs)) v.disk)
    (steady : o.Steady d v.disk) :
    ∀ h ∈ hs, ∃ unit, h.definition.unit = .ok unit ∧
      (h.text = (o.render d unit).toOption ∨
        h.text = none ∧ ∃ why, h.result = .error (.disk why)) := by
  induction ms generalizing now w hs front with
  | nil =>
    cases done
    exact nofun
  | cons m ms ih =>
    obtain ⟨unit, w₁, w₂, others, preparing, writing, remaining, rfl⟩ :=
      handing_cons_eq_ok_iff.mp done
    obtain ⟨hasUnit, retains, logged⟩ := act_prepare_eq_ok ready preparing
    have ready₁ : Channel.Ready w₁.channel w₁.disk := retains.channel ▸ ready.relogged logged
    rcases placing : now.place (now.path m) unit w₁.disk with ⟨result, placed⟩
    obtain ⟨text, tried⟩ := placed_of_place placing
    have fine := fault_of_write tried writing
    obtain ⟨w₂', written, channel, ready₂, told, -⟩ := write_of_placed ready₁ tried fine
    rw [tried.handed_eq] at writing spares ⊢
    cases writing.symm.trans written
    rw [retains.channel] at channel ready₂ told
    -- Whatever the run does from here on, it keeps the directories.
    have later := (keeps_of_generate (channel ▸ ready₂)
      (generate_eq_ok_iff.mpr ⟨others, remaining, rfl⟩)).2.1
    have last : Disk.Keeps placed v.disk := told.sameDirectories.keeps.trans later
    have left₁ := left.trans (Leaves.of_relogged logged)
    have own : now.Leaves (Channel.log w.channel) _ w₁.disk placed := tried.leaves
    have left₂ := left₁.trans (Leaves.of_amid amid own)
    have made : o.Alike d (w₁.disk.makeDirectories o.directory).2 := by
      have paved : o.Leaves (Channel.log w.channel) [] w₁.disk _ :=
        .of_paves (Disk.paves_of_made rfl)
      have kept := tried.keeps_made.trans last
      rw [amid.directory] at kept
      have left₃ := left₁.trans paved
      rw [List.append_nil, List.append_nil] at left₃
      exact left₃.alike_of_spares kept steady spares survived
    refine List.forall_mem_cons.mpr ⟨⟨unit, hasUnit, ?_⟩, ?_⟩
    · exact tried.text_of_alike amid made
    · refine @ih (now.next w₁.disk) w₂ others (front ++ [⟨m, text, result⟩]) (amid.next made) ?_ ?_
        (channel ▸ ready₂) remaining ?_
      · rw [channel]
        have left₄ := left₂.trans (Leaves.of_relogged told)
        rwa [List.append_nil, List.append_nil] at left₄
      · exact List.forall_mem_append.mpr ⟨survived, List.forall_mem_singleton.mpr fine⟩
      · rwa [channel, List.append_assoc, List.singleton_append]

end ModuleStubs.StubOutput
