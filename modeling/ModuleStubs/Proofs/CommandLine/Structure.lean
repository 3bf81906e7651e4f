import ModuleStubs.Proofs.CommandLine.Completion
import ModuleStubs.Proofs.Definition.RoundTrip
import ModuleStubs.Proofs.Disk.Growth
import ModuleStubs.Proofs.Extraction.ReportedTexts
import ModuleStubs.Proofs.Project.Origin

/-! The printed structure of a project says all that has been extracted, except for the answers
of the tool that described no types. -/

namespace ModuleStubs

instance (type : Descriptor) : Decidable type.Hollow :=
  inferInstanceAs (Decidable (type ≠ .void ∧ type.innermost = .void))

/-- No type is an array whose innermost element is nothing. -/
def Definition.Solid (m : Definition) : Prop := m.EveryType fun type => ¬ type.Hollow

namespace Definition

variable {m n : Definition} {ms : List Definition}

theorem Extracted.spelled (extracted : m.Extracted) (solid : m.Solid) :
    m.EveryType Descriptor.IsSpelled :=
  Definition.Throughout.combine
    (fun _ read solid type mem => Descriptor.ofName_spelling (read type mem) (solid type mem))
    extracted.everyType solid

/-- What can be told from its printed structure. -/
structure Legible (m : Definition) : Prop where
  extracted : m.Extracted
  joined : m.Throughout Signature.Joined
  solid : m.Solid

theorem Reported.legible (reported : m.Reported) (solid : m.Solid) : m.Legible :=
  ⟨reported.extracted, reported.joined, solid⟩

theorem bare_eq_of_toJson_eq (legible : m.Legible) (legible' : n.Legible)
    (same : m.toJson = n.toJson) : m.bare = n.bare := by
  have first := ofJson?_toJson (legible.extracted.spelled legible.solid)
  have second := ofJson?_toJson (legible'.extracted.spelled legible'.solid)
  rw [same, second] at first
  exact (Option.some.inj first).symm

theorem textual_list_toJson (each : ∀ m ∈ ms, m.Legible) :
    (Json.arr (ms.map toJson)).Textual := by
  refine .arr fun v mem => ?_
  obtain ⟨m, listed, rfl⟩ := List.mem_map.mp mem
  exact textual_toJson (each m listed).joined

end Definition

namespace CommandLine

theorem read_structureText {ms : List Definition} (each : ∀ m ∈ ms, m.Legible) :
    Json.read (structureText ms) = .ok (.arr (ms.map Definition.toJson)) :=
  Json.read_text (Json.Style.blank_indented 2) (Definition.textual_list_toJson each)
    (by simp [Json.isSpace])

theorem printDefinitions_of_collect {p : Project} {w x : World} {c : Collection}
    (collected : p.collect.outcome w = (.ok c, x)) :
    ∃ v, (printDefinitions p).outcome w = (.ok (), v) ∧
      v.printed = x.printed ++ structureText c.modules := by
  obtain ⟨t, reported, -⟩ := Project.outcome_report x
  refine ⟨{ x.advance t with printed := x.printed ++ structureText c.modules }, ?_, rfl⟩
  rw [printDefinitions, Run.outcome_bind_of_ok collected, Run.outcome_bind_of_ok reported]
  exact Run.outcome_print_string _ (x.advance t)

theorem printed_of_structure {texts : List String} {host : Host} {time : String} {d : Disk}
    {r : Request} (asked : read texts = .ok r) (command : r.command = .definitions)
    (done : (run texts host time d).result = .ok 0) :
    ∃ channel before settings c v,
      Channel.configure r.verbose r.logFile d = (.ok (), channel, before) ∧
      Settings.load host before r.path = .ok settings ∧
      (Project.collect ⟨host, settings⟩).outcome
        { disk := before, channel := some channel, time := time } = (.ok c, v) ∧
      (∀ m ∈ c.modules, m.Reported) ∧
      (run texts host time d).output = structureText c.modules := by
  obtain ⟨channel, before, settings, v, configured, loaded, outcome, shown⟩ :=
    run_completes asked done
  rw [command] at outcome
  obtain ⟨c, x, collected, -⟩ := Run.outcome_bind_eq_ok.mp outcome
  let w : World := { disk := before, channel := some channel, time := time }
  obtain ⟨after, reported⟩ :=
    Project.ensures_collect ⟨host, settings⟩ w .nil (Channel.ready_configure configured)
  rw [collected] at after reported
  refine ⟨channel, before, settings, c, x, configured, loaded, collected, reported c rfl, ?_⟩
  obtain ⟨v', outcome', printed⟩ := printDefinitions_of_collect collected
  have same : v = v' := congrArg Prod.snd (outcome.symm.trans outcome')
  have quiet : x.printed = "" := after.printed
  rw [shown]
  change v.printed = _
  rw [same, printed, quiet, String.empty_append]

/-- The printed structure is lossless. The command prints one text for the modules that its run has
collected, each from a tree that the tool has printed. All of these are legible if they have no
array of nothing. For every list of legible modules the text is read as the list of their objects,
and each object is read back as its module, but for the answers of the tool that described no types.
So modules that differ in more than these answers are printed differently. -/
theorem structure_lossless :
    (∀ (texts : List String) (host : Host) (time : String) (d : Disk) (r : Request),
      read texts = .ok r → r.command = .definitions →
      (run texts host time d).result = .ok 0 →
      ∃ channel before settings c v,
        Channel.configure r.verbose r.logFile d = (.ok (), channel, before) ∧
        Settings.load host before r.path = .ok settings ∧
        (Project.collect ⟨host, settings⟩).outcome
          { disk := before, channel := some channel, time := time } = (.ok c, v) ∧
        (∀ m ∈ c.modules, m.Reported) ∧
        (run texts host time d).output = structureText c.modules) ∧
    (∀ m : Definition, m.Reported → m.Solid → m.Legible) ∧
    (∀ ms : List Definition, (∀ m ∈ ms, m.Legible) →
      Json.read (structureText ms) = .ok (.arr (ms.map Definition.toJson)) ∧
      (ms.map Definition.toJson).mapM Definition.ofJson? = some (ms.map Definition.bare)) ∧
    ∀ m n : Definition, m.Legible → n.Legible → m.bare ≠ n.bare →
      Json.text (Json.indented 2) m.toJson ≠ Json.text (Json.indented 2) n.toJson := by
  refine ⟨fun texts host time d r asked command done => printed_of_structure asked command done,
    fun m => Definition.Reported.legible, fun ms each => ⟨read_structureText each, ?_⟩,
    fun m n legible legible' differ same => differ ?_⟩
  · exact mapM_ofJson fun m mem =>
      Definition.ofJson?_toJson ((each m mem).extracted.spelled (each m mem).solid)
  · have blank := Json.Style.blank_indented 2
    have ends : ∀ c ∈ "".toList, Json.isSpace c = true := by simp
    have first := Json.read_text blank (Definition.textual_toJson legible.joined) ends
    have second := Json.read_text blank (Definition.textual_toJson legible'.joined) ends
    rw [same, second] at first
    exact Definition.bare_eq_of_toJson_eq legible legible' (Except.ok.inj first).symm

instance (w : Wording) : Decidable w.Joined :=
  inferInstanceAs (Decidable (w.IsChain _))

instance (name : Option Wording) : Decidable (NameJoined name) :=
  match name with
  | none => isTrue nofun
  | some w =>
    decidable_of_iff w.Joined ⟨by rintro joined _ ⟨⟩; exact joined, fun each => each w rfl⟩

def listRoot (typename : String) : List Node :=
  [⟨none, none, some "Name", none, none, [⟨none, none, none, some 0, some 1, []⟩]⟩,
    ⟨none, none, some "Function", none, none,
      [⟨none, none, none, some 1, some 1, []⟩,
        ⟨some "source.lang.swift.expr.closure", none, none, none, none,
          [⟨some "source.lang.swift.decl.var.parameter", some (Wording.ofString typename),
            some (Wording.ofString "é"), none, none, []⟩]⟩]⟩]

def listExtractor (text : String) : Extractor :=
  ⟨{ tool := fun _ _ => .missing, settings := {} }, ⟨⟨.relative, ["M.swift"]⟩, text⟩⟩

structure Spoken where
  names : List (Option Wording)
  types : List Descriptor
  deriving DecidableEq

def spoken (s : Signature) : Spoken := ⟨s.parameters.map (·.name), s.types⟩

def modulesShown (m : Definition) : String × List Spoken :=
  (m.name, m.declarations.map fun d => spoken d.signature)

theorem legible_of_shown {m : Definition} (extracted : m.Extracted)
    (viewless : m.view = none)
    (each : ∀ d ∈ m.declarations, (∀ name ∈ (spoken d.signature).names, NameJoined name) ∧
      ∀ type ∈ (spoken d.signature).types, NameJoined type.spelling ∧ ¬ type.Hollow) :
    m.Legible := by
  have none : ∀ v, m.view ≠ some v := by
    rw [viewless]
    exact nofun
  refine ⟨extracted, .intro (fun d mem => ?_) fun v seen => absurd seen (none v),
    .intro (fun d mem type listed => ((each d mem).2 type listed).2)
      fun v seen => absurd seen (none v)⟩
  exact ⟨fun p listed => (each d mem).1 _ (List.mem_map_of_mem listed),
    fun type listed => ((each d mem).2 type listed).1⟩

theorem exists_of_modulesShown {text typename name : String}
    {signatures : List Spoken}
    (shown : (((listExtractor text).surface (listRoot typename) none).outcome {}).1.toOption.map
      modulesShown = some (name, signatures))
    (each : ∀ s ∈ signatures, (∀ name ∈ s.names, NameJoined name) ∧
      ∀ type ∈ s.types, NameJoined type.spelling ∧ ¬ type.Hollow) :
    ∃ m : Definition, m.Legible ∧ modulesShown m = (name, signatures) := by
  obtain ⟨m, extracted, viewless, data⟩ := Definition.exists_of_surface (fun _ => rfl) rfl shown
  have same : m.declarations.map (fun d => spoken d.signature) = signatures :=
    congrArg Prod.snd data
  refine ⟨m, legible_of_shown extracted viewless fun d mem => each _ ?_, data⟩
  rw [← same]
  exact List.mem_map_of_mem mem

theorem source_collected : ∃ c v, sourceProject.collect.outcome sourceWorld = (.ok c, v) ∧
    c.modules.map modulesShown = [("A", [⟨[], [.void]⟩])] := by
  have evaluated : (sourceProject.collect.outcome sourceWorld).1.toOption.map
      (fun c => c.modules.map modulesShown) = some [("A", [⟨[], [.void]⟩])] := by
    rw [collect_source]
    simp only [Project.collectFiles, Project.collectFrom, Project.extractFile,
      Extractor.extract_eq_viewAlong]
    decide +kernel
  obtain ⟨c, result, modules⟩ := Option.map_eq_some_iff.mp evaluated
  exact ⟨c, _, Prod.ext (eq_ok_of_toOption result) rfl, modules⟩

theorem arrays_printed :
    (∃ c v, sourceProject.collect.outcome sourceWorld = (.ok c, v) ∧
      c.modules.map modulesShown = [("A", [⟨[], [.void]⟩])] ∧
      (run ["structure"] sourceHost "" sourceDisk).output = structureText c.modules) ∧
    ∃ m n : Definition,
      modulesShown m = ("M", [⟨[some "é"], [.array (.array (.primitive "Int")), .unknown]⟩]) ∧
      modulesShown n = ("N", [⟨[some "é"], [.primitive "Int", .unknown]⟩]) ∧
      Json.read (structureText [m, n]) = .ok (.arr [m.toJson, n.toJson]) ∧
      [m.toJson, n.toJson].mapM Definition.ofJson? = some [m.bare, n.bare] ∧
      Json.text (Json.indented 2) m.toJson ≠ Json.text (Json.indented 2) n.toJson := by
  obtain ⟨prints, -, decodes, differ⟩ := structure_lossless
  refine ⟨?_, ?_⟩
  · have asked : read ["structure"] = .ok ⟨false, none, ⟨.relative, []⟩, .definitions⟩ := rfl
    obtain ⟨c, x, collected, modules⟩ := source_collected
    obtain ⟨v, outcome, -⟩ := printDefinitions_of_collect collected
    have done : (run ["structure"] sourceHost "" sourceDisk).result = .ok 0 := by
      rw [run_source asked outcome]
    obtain ⟨channel, before, settings, c', x', configured, loaded, collected', -, printed⟩ :=
      prints _ _ _ _ _ asked rfl done
    cases configured
    rw [load_source] at loaded
    cases loaded
    have same := collected.symm.trans collected'
    cases same
    exact ⟨c, x, collected, modules, printed⟩
  · obtain ⟨m, legible, shown⟩ :=
      @exists_of_modulesShown "Mf" "[[Int]]" "M"
        [⟨[some "é"], [.array (.array (.primitive "Int")), .unknown]⟩]
        (by decide +kernel) (by decide +kernel)
    obtain ⟨n, legible', shown'⟩ :=
      @exists_of_modulesShown "Nf" "Int" "N" [⟨[some "é"], [.primitive "Int", .unknown]⟩]
        (by decide +kernel) (by decide +kernel)
    obtain ⟨text, objects⟩ := decodes [m, n]
      (List.forall_mem_cons.mpr ⟨legible, List.forall_mem_singleton.mpr legible'⟩)
    refine ⟨m, n, shown, shown', text, objects, differ m n legible legible' ?_⟩
    intro same
    have named : m.name = n.name := by simpa using congrArg Definition.name same
    have first : m.name = "M" := congrArg Prod.fst shown
    have second : n.name = "N" := congrArg Prod.fst shown'
    rw [first, second] at named
    exact absurd named (by decide)

end CommandLine

end ModuleStubs
