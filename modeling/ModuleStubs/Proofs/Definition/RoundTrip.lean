import ModuleStubs.Definition.Reader
import ModuleStubs.Proofs.Definition.Types
import ModuleStubs.Proofs.Json.RoundTrip
import ModuleStubs.Proofs.Structure.ReadNodes

/-! Definitions are read back from their printed form, but for the answers of the tool that
described no types: these are not printed. -/

namespace ModuleStubs

open Json (Textual)

def Signature.bare (s : Signature) : Signature := { s with raw := none }

def Declaration.bare (d : Declaration) : Declaration := { d with signature := d.signature.bare }

def Definition.bareWith (m : Definition) (view : Option Definition) : Definition :=
  { m with
    functions := m.functions.map Declaration.bare
    asyncFunctions := m.asyncFunctions.map Declaration.bare
    properties := m.properties.map Declaration.bare
    props := m.props.map Declaration.bare
    onCreate := m.onCreate.map Declaration.bare
    view := view }

mutual

/-- A definition without the tool answers that its declarations keep. -/
def Definition.bare : Definition → Definition
  | m@⟨_, _, _, _, _, _, _, view⟩ => m.bareWith (bareView view)

def bareView : Option Definition → Option Definition
  | none => none
  | some view => some view.bare

end

theorem Definition.bare_eq (m : Definition) : m.bare = m.bareWith (bareView m.view) := by
  cases m
  rw [bare]

@[simp] theorem Definition.name_bare (m : Definition) : m.bare.name = m.name := by
  rw [bare_eq, bareWith]

theorem Definition.toJson_eq (m : Definition) : m.toJson = m.toJsonWith (viewToJson m.view) := by
  cases m
  rw [toJson]

theorem mapM_ofJson {α : Type} {write : α → Json} {read : Json → Option α} {bare : α → α}
    {items : List α} (each : ∀ x ∈ items, read (write x) = some (bare x)) :
    (items.map write).mapM read = some (items.map bare) := by
  induction items with
  | nil => rfl
  | cons x items ih =>
    obtain ⟨first, rest⟩ := List.forall_mem_cons.mp each
    rw [List.map_cons, List.mapM_cons, first, ih rest]
    rfl

theorem textOrNull?_textOrNull (name : Option Wording) :
    (textOrNull name).textOrNull? = some name := by
  cases name <;> rfl

theorem wholeOrNull?_textOrNull (name : Option String) :
    (textOrNull (name.map Wording.ofString)).wholeOrNull? = some name := by
  cases name with
  | none => rfl
  | some s => simp [textOrNull, Json.wholeOrNull?, Json.whole?, Json.str?, Except.toOption]

section Reading

def Descriptor.IsSpelled (d : Descriptor) : Prop := ofName d.spelling = d

theorem Parameter.ofJson?_toJson {p : Parameter} (spelled : p.type.IsSpelled) :
    ofJson? p.toJson = some p := by
  have read : ofJson? p.toJson = some ⟨p.name, Descriptor.ofName p.type.spelling⟩ := by
    simp [ofJson?, toJson, Json.fields?, Json.lookup, textOrNull?_textOrNull]
  rw [read, spelled]

theorem Signature.ofJson?_toJson {s : Signature} (spelled : s.Every Descriptor.IsSpelled) :
    ofJson? s.toJson = some s.bare := by
  obtain ⟨each, result⟩ := every_iff.mp spelled
  have parameters : (s.parameters.map Parameter.toJson).mapM Parameter.ofJson? =
      some s.parameters := by
    rw [mapM_ofJson fun p mem => Parameter.ofJson?_toJson (each p mem), List.map_id']
  have read : ofJson? s.toJson =
      some ⟨s.parameters, Descriptor.ofName s.result.spelling, none⟩ := by
    simp [ofJson?, toJson, Json.fields?, Json.lookup, Json.items?, parameters,
      textOrNull?_textOrNull]
  rw [read, result, bare]

theorem Declaration.ofJson?_toJson {d : Declaration}
    (spelled : d.signature.Every Descriptor.IsSpelled) : ofJson? d.toJson = some d.bare := by
  simp [ofJson?, toJson, Json.fields?, Json.lookup, wholeOrNull?_textOrNull,
    Signature.ofJson?_toJson spelled, bare]

theorem whole?_ofString (s : String) : (Json.str s).whole? = some s := by
  simp [Json.whole?, Json.str?, Except.toOption]

theorem eventOfJson?_eventJson (name : String) : eventOfJson? (eventJson name) = some name := by
  simp [eventOfJson?, eventJson, Json.fields?, Json.lookup, whole?_ofString]

theorem listAt?_of_lookup {α : Type} {key : Wording} {write : α → Json} {read : Json → Option α}
    {bare : α → α} {fields : List (Wording × Json)} {items : List α}
    (found : Json.lookup key fields = some (.arr (items.map write)))
    (each : ∀ x ∈ items, read (write x) = some (bare x)) :
    listAt? key read fields = some (items.map bare) := by
  rw [listAt?, found]
  exact mapM_ofJson each

theorem Definition.forall_mem_declarations {m : Definition} {P : Declaration → Prop} :
    (∀ d ∈ m.declarations, P d) ↔ (∀ d ∈ m.functions, P d) ∧ (∀ d ∈ m.asyncFunctions, P d) ∧
      (∀ d ∈ m.properties, P d) ∧ (∀ d ∈ m.props, P d) ∧ ∀ d ∈ m.onCreate, P d := by
  simp only [declarations, List.forall_mem_append, and_assoc]

theorem Definition.ofJson?_toJsonWith {m : Definition}
    (spelled : ∀ d ∈ m.declarations, d.signature.Every Descriptor.IsSpelled) {shown : Json}
    {view : Option Definition}
    (seen : (if shown.isNull then some none else (ofJson? shown).map some) = some view) :
    ofJson? (m.toJsonWith shown) = some (m.bareWith view) := by
  have read : ∀ d ∈ m.declarations, Declaration.ofJson? d.toJson = some d.bare := fun d mem =>
    Declaration.ofJson?_toJson (spelled d mem)
  obtain ⟨functions, asyncFunctions, properties, props, onCreate⟩ :=
    forall_mem_declarations.mp read
  have events : ∀ name ∈ m.events, eventOfJson? (eventJson name) = some (id name) :=
    fun name _ => eventOfJson?_eventJson name
  rw [toJsonWith, ofJson?, surface?, listAt?_of_lookup rfl functions,
    listAt?_of_lookup rfl asyncFunctions, listAt?_of_lookup rfl events,
    listAt?_of_lookup rfl properties, listAt?_of_lookup rfl props, listAt?_of_lookup rfl onCreate]
  simp [Json.lookup, whole?_ofString, viewAt?, seen, bareWith]

theorem Definition.ofJson?_toJson {m : Definition} (spelled : m.EveryType Descriptor.IsSpelled) :
    ofJson? m.toJson = some m.bare := by
  induction spelled with
  | @intro m own view ih =>
    rw [toJson_eq, bare_eq]
    refine ofJson?_toJsonWith own ?_
    cases seen : m.view with
    | none => rfl
    | some v =>
      have isObject : v.toJson.isNull = false := by
        rw [toJson_eq]
        rfl
      rw [viewToJson, isObject, if_neg Bool.false_ne_true, ih v seen]
      rfl

end Reading

section Writing

structure Signature.Joined (s : Signature) : Prop where
  names : ∀ p ∈ s.parameters, NameJoined p.name
  types : s.Every fun type => NameJoined type.spelling

theorem textual_textOrNull {name : Option Wording} (joined : NameJoined name) :
    (textOrNull name).Textual := by
  cases name with
  | none => exact .null
  | some s => exact .str (joined s rfl)

theorem textual_ofString (s : String) : (Json.str s).Textual := .str (Wording.joined_ofString s)

theorem textual_list {α : Type} {write : α → Json} {items : List α}
    (each : ∀ x ∈ items, (write x).Textual) : (Json.arr (items.map write)).Textual := by
  refine .arr fun v mem => ?_
  obtain ⟨x, listed, rfl⟩ := List.mem_map.mp mem
  exact each x listed

theorem Parameter.textual_toJson {p : Parameter} (name : NameJoined p.name)
    (type : NameJoined p.type.spelling) : p.toJson.Textual := by
  refine .obj (by simp) (by simp) ?_
  simp only [List.forall_mem_cons]
  exact ⟨textual_textOrNull name, textual_textOrNull type, nofun⟩

theorem Signature.textual_toJson {s : Signature} (joined : s.Joined) : s.toJson.Textual := by
  obtain ⟨types, result⟩ := every_iff.mp joined.types
  refine .obj (by simp) (by simp) ?_
  simp only [List.forall_mem_cons]
  refine ⟨textual_list fun p mem => ?_, textual_textOrNull result, nofun⟩
  exact Parameter.textual_toJson (joined.names p mem) (types p mem)

theorem Declaration.textual_toJson {d : Declaration} (joined : d.signature.Joined) :
    d.toJson.Textual := by
  refine .obj (by simp) (by simp) ?_
  simp only [List.forall_mem_cons]
  refine ⟨textual_textOrNull ?_, Signature.textual_toJson joined, nofun⟩
  intro w given
  obtain ⟨name, -, rfl⟩ := Option.map_eq_some_iff.mp given
  exact Wording.joined_ofString name

theorem textual_eventJson (name : String) : (eventJson name).Textual := by
  refine .obj (by simp) (by simp) ?_
  simp only [List.forall_mem_cons]
  exact ⟨textual_ofString name, nofun⟩

theorem Definition.textual_toJsonWith {m : Definition}
    (joined : ∀ d ∈ m.declarations, d.signature.Joined) {view : Json} (textual : view.Textual) :
    (m.toJsonWith view).Textual := by
  obtain ⟨functions, asyncFunctions, properties, props, onCreate⟩ :=
    forall_mem_declarations.mp fun d mem => Declaration.textual_toJson (joined d mem)
  refine .obj (by simp) (by simp) ?_
  simp only [List.forall_mem_cons]
  exact ⟨textual_ofString m.name, textual_list functions, textual_list asyncFunctions,
    textual_list fun name _ => textual_eventJson name, textual_list properties, textual_list props,
    textual_list onCreate, textual, nofun⟩

theorem Definition.textual_toJson {m : Definition} (joined : m.Throughout Signature.Joined) :
    m.toJson.Textual := by
  induction joined with
  | @intro m own view ih =>
    rw [toJson_eq]
    refine textual_toJsonWith own ?_
    cases seen : m.view with
    | none => exact .null
    | some v => exact ih v seen

end Writing

end ModuleStubs
