import Mathlib.Data.List.Lex
import Mathlib.Logic.Relation
import ModuleStubs.Definition.Reader
import ModuleStubs.Proofs.Json.Erasure
import ModuleStubs.Proofs.Structure.Entries

/-! The tree of a report, told by the report alone. Its nodes stand for the objects that lists of
substructures lead to, at the same depth and in the same order, and each has the fields that its
object holds in the right type. Whatever else a report holds can be deleted. -/

namespace ModuleStubs

def Shape.kind? : Shape → Option Wording
  | .closure => some "source.lang.swift.expr.closure"
  | .parameter => some "source.lang.swift.decl.var.parameter"
  | .call => some "source.lang.swift.expr.call"
  | .argument => some "source.lang.swift.expr.argument"
  | .moduleDefinition => none
  | .unrecognized => none

namespace Node

/-- A node has the values of an object where they have the right type, nothing elsewhere, and
the shape that its own type name and kind stand for. -/
structure Narrows (fields : List (Wording × Json)) (n : Node) : Prop where
  kind : ∀ s, n.kind = some s ↔ Json.lookup "key.kind" fields = some (.str s)
  typename : ∀ s, n.typename = some s ↔ Json.lookup "key.typename" fields = some (.str s)
  name : ∀ s, n.name = some s ↔ Json.lookup "key.name" fields = some (.str s)
  offset : ∀ k, n.offset = some k ↔ Json.lookup "key.offset" fields = some (.int k)
  length : ∀ k, n.length = some k ↔ Json.lookup "key.length" fields = some (.int k)
  marked : n.shape = .moduleDefinition ↔
    Json.lookup "key.typename" fields = some (.str "ModuleDefinition")
  shaped : ∀ s k, s.kind? = some k → (n.shape = s ↔
    Json.lookup "key.typename" fields ≠ some (.str "ModuleDefinition") ∧
      Json.lookup "key.kind" fields = some (.str k))

theorem textField_eq_some_iff {key s : Wording} {fields : List (Wording × Json)} :
    textField key fields = some s ↔ Json.lookup key fields = some (.str s) := by
  rw [textField, Option.bind_eq_some_iff]
  constructor
  · rintro ⟨value, held, text⟩
    cases value <;> cases text
    exact held
  · exact fun held => ⟨_, held, rfl⟩

theorem numberField_eq_some_iff {key : Wording} {k : Int} {fields : List (Wording × Json)} :
    numberField key fields = some k ↔ Json.lookup key fields = some (.int k) := by
  rw [numberField, Option.bind_eq_some_iff]
  constructor
  · rintro ⟨value, held, number⟩
    cases value <;> cases number
    exact held
  · exact fun held => ⟨_, held, rfl⟩

theorem shapeOf_eq_moduleDefinition_iff {kind typename : Option Wording} :
    shapeOf kind typename = .moduleDefinition ↔ typename = some moduleTypename := by
  unfold shapeOf
  split_ifs <;> simp_all

theorem shapeOf_eq_iff {kind typename : Option Wording} {s : Shape} {k : Wording}
    (stands : s.kind? = some k) :
    shapeOf kind typename = s ↔ typename ≠ some moduleTypename ∧ kind = some k := by
  cases s <;> cases stands <;> unfold shapeOf <;> split_ifs <;> simp_all

theorem narrows_ofFields (fields : List (Wording × Json)) : Narrows fields (ofFields fields) where
  kind _ := textField_eq_some_iff
  typename _ := textField_eq_some_iff
  name _ := textField_eq_some_iff
  offset _ := numberField_eq_some_iff
  length _ := numberField_eq_some_iff
  marked := shapeOf_eq_moduleDefinition_iff.trans textField_eq_some_iff
  shaped _ _ stands := (shapeOf_eq_iff stands).trans
    (and_congr (not_congr textField_eq_some_iff) textField_eq_some_iff)

/-! The objects inside a report -/

/-- The objects inside a report, each with the positions in the lists that lead to it. -/
inductive Contains : List (Wording × Json) → List Nat → List (Wording × Json) → Prop
  | here (fields : List (Wording × Json)) : Contains fields [] fields
  | inside {fields inner goal : List (Wording × Json)} {items : List Json} {i : Nat}
    {path : List Nat} (listed : Json.lookup "key.substructure" fields = some (.arr items))
    (entry : items[i]? = some (.obj inner)) (rest : Contains inner path goal) :
    Contains fields (i :: path) goal

def listed (fields : List (Wording × Json)) : List Json :=
  ((Json.lookup "key.substructure" fields).bind Json.items?).getD []

def rank (items : List Json) (i : Nat) : Nat := ((items.take i).filterMap Json.fields?).length

/-- Where the node of an object is in the tree. Items that are no objects do not count. -/
def place : List (Wording × Json) → List Nat → List Nat
  | _, [] => []
  | fields, i :: path =>
    rank (listed fields) i :: place (((listed fields)[i]?.bind Json.fields?).getD []) path

def at? : Node → List Nat → Option Node
  | n, [] => some n
  | n, i :: path => (n.child? i).bind fun child => at? child path

theorem listed_of_lookup {fields : List (Wording × Json)} {items : List Json}
    (held : Json.lookup "key.substructure" fields = some (.arr items)) :
    listed fields = items := by
  rw [listed, held]
  rfl

theorem lookup_of_mem_listed {fields : List (Wording × Json)} {item : Json}
    (mem : item ∈ listed fields) :
    Json.lookup "key.substructure" fields = some (.arr (listed fields)) := by
  unfold listed at mem ⊢
  cases held : Json.lookup "key.substructure" fields with
  | none => simp [held] at mem
  | some value =>
    cases value with
    | arr items => rfl
    | _ => simp [held, Json.items?] at mem

theorem entries_eq_filterMap (fields : List (Wording × Json)) :
    entries fields = (listed fields).filterMap Json.fields? := by
  rw [entries, listed]
  cases Json.lookup "key.substructure" fields with
  | none => rfl
  | some value => cases value <;> rfl

section

variable {items : List Json} {i j : Nat} {inner : List (Wording × Json)}

theorem getElem?_rank (entry : items[i]? = some (.obj inner)) :
    (items.filterMap Json.fields?)[rank items i]? = some inner := by
  obtain ⟨inside, at_i⟩ := List.getElem?_eq_some_iff.mp entry
  have parts : items = items.take i ++ .obj inner :: items.drop (i + 1) := by
    rw [← at_i, List.getElem_cons_drop, List.take_append_drop]
  conv_lhs => enter [1]; rw [parts]
  rw [List.filterMap_append, rank, List.getElem?_append_right (Nat.le_refl _), Nat.sub_self]
  rfl

theorem rank_cons_succ (item : Json) (items : List Json) (i : Nat) :
    rank (item :: items) (i + 1) = item.fields?.toList.length + rank items i := by
  rw [rank, List.take_succ_cons, List.filterMap_cons]
  cases item.fields? with
  | none => exact (Nat.zero_add _).symm
  | some fields => exact Nat.add_comm _ _

theorem exists_of_getElem?_filterMap {k : Nat}
    (entry : (items.filterMap Json.fields?)[k]? = some inner) :
    ∃ i, items[i]? = some (.obj inner) ∧ rank items i = k := by
  induction items generalizing k with
  | nil => simp at entry
  | cons item items ih =>
    cases item with
    | obj fields =>
      cases k with
      | zero =>
        cases entry
        exact ⟨0, rfl, rfl⟩
      | succ k =>
        obtain ⟨i, there, counted⟩ := ih entry
        exact ⟨i + 1, there, by rw [rank_cons_succ, counted]; exact Nat.add_comm 1 k⟩
    | _ =>
      obtain ⟨i, there, counted⟩ := ih entry
      exact ⟨i + 1, there, by rw [rank_cons_succ, counted]; exact Nat.zero_add k⟩

theorem rank_lt (entry : items[i]? = some (.obj inner)) (before : i < j) :
    rank items i < rank items j := by
  have next : rank items (i + 1) = rank items i + 1 := by
    rw [rank, List.take_add_one, entry, List.filterMap_append, List.length_append]
    rfl
  have rest : rank items (i + 1) ≤ rank items j :=
    ((List.take_sublist_take_left before).filterMap _).length_le
  omega

end

section

variable {fields goal other : List (Wording × Json)} {path path' spot : List Nat} {n : Node}

theorem child?_ofFields (fields : List (Wording × Json)) (i : Nat) :
    (ofFields fields).child? i = (entries fields)[i]?.map ofFields := by
  rw [child?, if_neg (by omega), Int.toNat_natCast, ← List.getElem?_map, ← substructure_eq_map]
  rfl

theorem place_cons {items : List Json} {i : Nat} {inner : List (Wording × Json)}
    (held : Json.lookup "key.substructure" fields = some (.arr items))
    (entry : items[i]? = some (.obj inner)) (path : List Nat) :
    place fields (i :: path) = rank items i :: place inner path := by
  rw [place, listed_of_lookup held, entry]
  rfl

theorem at?_place (contains : Contains fields path goal) :
    at? (ofFields fields) (place fields path) = some (ofFields goal) := by
  induction contains with
  | here => rfl
  | @inside fields inner goal items i path held entry rest ih =>
    have child : (ofFields fields).child? (rank items i) = some (ofFields inner) := by
      rw [child?_ofFields, entries_eq_filterMap, listed_of_lookup held, getElem?_rank entry]
      rfl
    rw [place_cons held entry, at?, child]
    exact ih

theorem exists_of_at? (there : at? (ofFields fields) spot = some n) :
    ∃ path goal, Contains fields path goal ∧ place fields path = spot := by
  induction spot generalizing fields with
  | nil => exact ⟨[], fields, .here fields, rfl⟩
  | cons k spot ih =>
    rw [at?, child?_ofFields, entries_eq_filterMap] at there
    obtain ⟨child, step, below⟩ := Option.bind_eq_some_iff.mp there
    obtain ⟨inner, found, rfl⟩ := Option.map_eq_some_iff.mp step
    obtain ⟨i, entry, counted⟩ := exists_of_getElem?_filterMap found
    obtain ⟨path, goal, rest, reached⟩ := ih below
    have held := lookup_of_mem_listed (List.mem_of_getElem? entry)
    refine ⟨i :: path, goal, .inside held entry rest, ?_⟩
    rw [place_cons held entry, counted, reached]

theorem length_place (contains : Contains fields path goal) :
    (place fields path).length = path.length := by
  induction contains with
  | here => rfl
  | inside held entry rest ih => rw [place_cons held entry, List.length_cons, ih, List.length_cons]

theorem place_lt (first : Contains fields path goal) (second : Contains fields path' other)
    (before : path < path') : place fields path < place fields path' := by
  induction first generalizing path' with
  | here =>
    cases second with
    | here => exact absurd before (List.lt_irrefl [])
    | inside held entry rest =>
      rw [place_cons held entry]
      exact List.nil_lt_cons _ _
  | inside held entry rest ih =>
    cases second with
    | here => exact absurd before (List.not_lt_nil _)
    | inside held' entry' rest' =>
      cases held.symm.trans held'
      rw [place_cons held entry, place_cons held entry', List.cons_lt_cons_iff]
      rcases List.cons_lt_cons_iff.mp before with earlier | ⟨rfl, within⟩
      · exact .inl (rank_lt entry earlier)
      · cases entry.symm.trans entry'
        exact .inr ⟨rfl, ih rest' within⟩

theorem place_lt_iff (first : Contains fields path goal) (second : Contains fields path' other) :
    place fields path < place fields path' ↔ path < path' := by
  refine ⟨fun before => ?_, place_lt first second⟩
  rcases lt_trichotomy path path' with earlier | rfl | later
  · exact earlier
  · exact absurd before (lt_irrefl _)
  · exact absurd (before.trans (place_lt second first later)) (lt_irrefl _)

theorem place_injective (first : Contains fields path goal) (second : Contains fields path' other)
    (same : place fields path = place fields path') : path = path' := by
  rcases lt_trichotomy path path' with earlier | same | later
  · exact absurd (place_lt first second earlier) (same ▸ lt_irrefl _)
  · exact same
  · exact absurd (place_lt second first later) (same ▸ lt_irrefl _)

end

/-- A tree stands for a report: each object inside has one node, at the same depth and in the
same order, and there are no others. -/
structure Mirrors (fields : List (Wording × Json)) (tree : Node) : Prop where
  carried : ∀ path goal, Contains fields path goal →
    ∃ n, at? tree (place fields path) = some n ∧ Narrows goal n
  covered : ∀ spot n, at? tree spot = some n →
    ∃! path, (∃ goal, Contains fields path goal) ∧ place fields path = spot
  depth : ∀ path goal, Contains fields path goal → (place fields path).length = path.length
  order : ∀ path path' goal goal', Contains fields path goal → Contains fields path' goal' →
    (place fields path < place fields path' ↔ path < path')

theorem mirrors_ofFields (fields : List (Wording × Json)) : Mirrors fields (ofFields fields) where
  carried _ goal contains := ⟨ofFields goal, at?_place contains, narrows_ofFields goal⟩
  covered spot n there := by
    obtain ⟨path, goal, contains, reached⟩ := exists_of_at? there
    refine ⟨path, ⟨⟨goal, contains⟩, reached⟩, ?_⟩
    rintro path' ⟨⟨goal', contains'⟩, reached'⟩
    exact place_injective contains' contains (reached'.trans reached.symm)
  depth _ _ contains := length_place contains
  order _ _ _ _ first second := place_lt_iff first second

/-! Deletions -/

def textKeys : List Wording := ["key.kind", "key.typename", "key.name"]

def numberKeys : List Wording := ["key.offset", "key.length"]

def readable (key : Wording) : Json → Bool
  | .str _ => key ∈ textKeys
  | .int _ => key ∈ numberKeys
  | .arr _ => key = "key.substructure"
  | _ => false

/-- One deletion from a report, at any depth: of a key that is not read or holds a value of
another type, or of an item of a substructure that is no object. -/
inductive Deletion : Json → Json → Prop
  | field {fields : List (Wording × Json)} {key : Wording} {value : Json}
    (held : Json.lookup key fields = some value) (unread : readable key value = false) :
    Deletion (.obj fields) (.obj (Json.erase key fields))
  | item {fields : List (Wording × Json)} {front back : List Json} {item : Json}
    (held : Json.lookup "key.substructure" fields = some (.arr (front ++ item :: back)))
    (other : item.fields? = none) :
    Deletion (.obj fields) (.obj (Json.put "key.substructure" (.arr (front ++ back)) fields))
  | inside {fields : List (Wording × Json)} {front back : List Json} {item later : Json}
    (held : Json.lookup "key.substructure" fields = some (.arr (front ++ item :: back)))
    (step : Deletion item later) :
    Deletion (.obj fields)
      (.obj (Json.put "key.substructure" (.arr (front ++ later :: back)) fields))

def Deletions : Json → Json → Prop := Relation.ReflTransGen Deletion

structure Clean (fields : List (Wording × Json)) : Prop where
  keys : ∀ key value, Json.lookup key fields = some value → readable key value = true
  items : ∀ item ∈ listed fields, ∃ inner, item = .obj inner

theorem substructure_eq_filterMap (fields : List (Wording × Json)) :
    substructure fields = (listed fields).filterMap ofJson? := by
  have each : ofJson? = fun item : Json => item.fields?.map ofFields := funext ofJson?_eq_map
  rw [substructure_eq_map, entries_eq_filterMap, List.map_filterMap, each]

theorem ofFields_congr {a b : List (Wording × Json)}
    (texts : ∀ key ∈ textKeys, textField key a = textField key b)
    (numbers : ∀ key ∈ numberKeys, numberField key a = numberField key b)
    (below : (listed a).filterMap ofJson? = (listed b).filterMap ofJson?) :
    ofFields a = ofFields b := by
  rw [← substructure_eq_filterMap, ← substructure_eq_filterMap] at below
  unfold ofFields
  rw [texts "key.kind" (by decide), texts "key.typename" (by decide),
    texts "key.name" (by decide), numbers "key.offset" (by decide),
    numbers "key.length" (by decide), below]

section

variable {fields : List (Wording × Json)} {key : Wording} {value : Json}

theorem textField_erase (held : Json.lookup key fields = some value)
    (unread : readable key value = false) {read : Wording} (text : read ∈ textKeys) :
    textField read (Json.erase key fields) = textField read fields := by
  by_cases same : read = key
  · subst same
    rw [textField, textField, Json.lookup_erase_self, held]
    cases value <;> simp_all [readable, Json.str?]
  · rw [textField, Json.lookup_erase_of_ne same, textField]

theorem numberField_erase (held : Json.lookup key fields = some value)
    (unread : readable key value = false) {read : Wording} (number : read ∈ numberKeys) :
    numberField read (Json.erase key fields) = numberField read fields := by
  by_cases same : read = key
  · subst same
    rw [numberField, numberField, Json.lookup_erase_self, held]
    cases value <;> simp_all [readable, Json.int?]
  · rw [numberField, Json.lookup_erase_of_ne same, numberField]

theorem listed_erase (held : Json.lookup key fields = some value)
    (unread : readable key value = false) : listed (Json.erase key fields) = listed fields := by
  by_cases same : "key.substructure" = key
  · subst same
    rw [listed, listed, Json.lookup_erase_self, held]
    cases value <;> simp_all [readable, Json.items?]
  · rw [listed, Json.lookup_erase_of_ne same, listed]

/-- Another list in the place of the substructure matters only for the nodes below. -/
theorem ofFields_put {items items' : List Json}
    (held : Json.lookup "key.substructure" fields = some (.arr items))
    (same : items'.filterMap ofJson? = items.filterMap ofJson?) :
    ofFields (Json.put "key.substructure" (.arr items') fields) = ofFields fields := by
  refine ofFields_congr (fun read text => ?_) (fun read number => ?_) ?_
  · have other : read ≠ "key.substructure" := fun same => absurd (same ▸ text) (by decide)
    rw [textField, Json.lookup_put_of_ne other, textField]
  · have other : read ≠ "key.substructure" := fun same => absurd (same ▸ number) (by decide)
    rw [numberField, Json.lookup_put_of_ne other, numberField]
  · rw [listed_of_lookup (Json.lookup_put_self _ _ _), listed_of_lookup held, same]

end

theorem Deletion.ofJson?_eq {a b : Json} (step : Deletion a b) : ofJson? b = ofJson? a := by
  induction step with
  | field held unread =>
    rw [ofJson?_obj, ofJson?_obj, ofFields_congr (fun _ => textField_erase held unread)
      (fun _ => numberField_erase held unread) (by rw [listed_erase held unread])]
  | @item fields front back item held other =>
    have nothing : ofJson? item = none := by rw [ofJson?_eq_map, other, Option.map_none]
    rw [ofJson?_obj, ofJson?_obj, ofFields_put held]
    rw [List.filterMap_append, List.filterMap_append, List.filterMap_cons_none nothing]
  | inside held step ih =>
    rw [ofJson?_obj, ofJson?_obj, ofFields_put held]
    rw [List.filterMap_append, List.filterMap_append, List.filterMap_cons, List.filterMap_cons, ih]

theorem Deletions.ofJson?_eq {a b : Json} (steps : Deletions a b) : ofJson? b = ofJson? a := by
  induction steps with
  | refl => rfl
  | tail _ step ih => exact step.ofJson?_eq.trans ih

theorem sizeOf_put_items_lt {fields : List (Wording × Json)} {items items' : List Json}
    (held : Json.lookup "key.substructure" fields = some (.arr items))
    (smaller : sizeOf items' < sizeOf items) :
    sizeOf (Json.obj (Json.put "key.substructure" (.arr items') fields)) <
      sizeOf (Json.obj fields) := by
  rw [Json.obj.sizeOf_spec, Json.obj.sizeOf_spec]
  refine Nat.add_lt_add_left (Json.sizeOf_put_lt held ?_) 1
  rw [Json.arr.sizeOf_spec, Json.arr.sizeOf_spec]
  exact Nat.add_lt_add_left smaller 1

theorem Deletion.sizeOf_lt {a b : Json} (step : Deletion a b) : sizeOf b < sizeOf a := by
  induction step with
  | field held unread =>
    rw [Json.obj.sizeOf_spec, Json.obj.sizeOf_spec]
    exact Nat.add_lt_add_left (Json.sizeOf_erase_lt held) 1
  | @item fields front back item held other =>
    have whole := Json.sizeOf_append front (item :: back)
    have parts := Json.sizeOf_append front back
    rw [List.cons.sizeOf_spec] at whole
    exact sizeOf_put_items_lt held (by omega)
  | @inside fields front back item later held step ih =>
    have before := Json.sizeOf_append front (item :: back)
    have after := Json.sizeOf_append front (later :: back)
    rw [List.cons.sizeOf_spec] at before after
    exact sizeOf_put_items_lt held (by omega)

/-- Where no deletion is left, every object inside is clean. -/
theorem clean_of_stuck {fields goal : List (Wording × Json)} {path : List Nat}
    (stuck : ∀ next, ¬ Deletion (.obj fields) next) (contains : Contains fields path goal) :
    Clean goal := by
  induction contains with
  | here fields =>
    refine ⟨fun key value held => ?_, fun item mem => ?_⟩
    · by_contra unread
      exact stuck _ (.field held (Bool.not_eq_true _ ▸ unread))
    · have held := lookup_of_mem_listed mem
      obtain ⟨front, back, parts⟩ := List.append_of_mem mem
      rw [parts] at held
      cases kind : item.fields? with
      | none => exact absurd (.item held kind) (stuck _)
      | some inner =>
        cases item <;> cases kind
        exact ⟨inner, rfl⟩
  | inside held entry rest ih =>
    obtain ⟨front, back, parts⟩ := List.append_of_mem (List.mem_of_getElem? entry)
    rw [parts] at held
    exact ih fun next step => stuck _ (.inside held step)

theorem exists_stuck (a : Json) : ∃ b, Deletions a b ∧ ∀ next, ¬ Deletion b next := by
  induction size : sizeOf a using Nat.strong_induction_on generalizing a with
  | _ size' ih =>
    by_cases more : ∃ next, Deletion a next
    · obtain ⟨next, step⟩ := more
      obtain ⟨b, steps, stuck⟩ := ih _ (size ▸ step.sizeOf_lt) next rfl
      exact ⟨b, .head step steps, stuck⟩
    · exact ⟨a, .refl, fun next step => more ⟨next, step⟩⟩

/-- Every object gives a tree whose nodes stand for the objects that lists of substructures lead
to, each once, at the same depth and in the same order, with the fields that are there in the
right type and the shape that these determine. No number of deletions changes the tree, and they
can go on until nothing is left to delete. -/
theorem narrowing_faithful (fields : List (Wording × Json)) :
    ∃ tree, ofJson? (.obj fields) = some tree ∧ Mirrors fields tree ∧
      (∀ later, Deletions (.obj fields) later → ofJson? later = some tree) ∧
      ∃ clean, Deletions (.obj fields) (.obj clean) ∧
        ∀ path goal, Contains clean path goal → Clean goal := by
  refine ⟨ofFields fields, ofJson?_obj fields, mirrors_ofFields fields,
    fun later steps => steps.ofJson?_eq.trans (ofJson?_obj fields), ?_⟩
  obtain ⟨b, steps, stuck⟩ := exists_stuck (.obj fields)
  have read := steps.ofJson?_eq.trans (ofJson?_obj fields)
  cases b with
  | obj clean => exact ⟨clean, steps, fun path goal => clean_of_stuck stuck⟩
  | _ => simp [ofJson?] at read

end Node

end ModuleStubs
