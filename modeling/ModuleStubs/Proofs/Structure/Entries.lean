import ModuleStubs.Structure.Node

/-! The nodes below a report are those of the objects in its substructure, in order. -/

namespace ModuleStubs.Node

def ofFields (fields : List (Wording × Json)) : Node where
  kind := textField "key.kind" fields
  typename := textField "key.typename" fields
  name := textField "key.name" fields
  offset := numberField "key.offset" fields
  length := numberField "key.length" fields
  children := substructure fields

def entries (fields : List (Wording × Json)) : List (List (Wording × Json)) :=
  match Json.lookup "key.substructure" fields with
  | some (.arr items) => items.filterMap Json.fields?
  | _ => []

theorem ofJson?_obj (fields : List (Wording × Json)) :
    ofJson? (.obj fields) = some (ofFields fields) := by
  rw [ofJson?, ofFields]

theorem ofJson?_eq_map (item : Json) : ofJson? item = item.fields?.map ofFields := by
  cases item with
  | obj fields => exact ofJson?_obj fields
  | _ => simp [ofJson?, Json.fields?]

theorem ofList_eq (value : Json) :
    ofList value = match value with
      | .arr items => (items.filterMap Json.fields?).map ofFields
      | _ => [] := by
  cases value with
  | arr items =>
    have each : ofJson? = fun item : Json => item.fields?.map ofFields := funext ofJson?_eq_map
    rw [ofList, ofItems_eq_filterMap, each]
    exact (List.map_filterMap ..).symm
  | _ => simp [ofList]

theorem substructure_eq_map (fields : List (Wording × Json)) :
    substructure fields = (entries fields).map ofFields := by
  induction fields with
  | nil => rw [substructure]; rfl
  | cons field fields ih =>
    obtain ⟨key, value⟩ := field
    rw [substructure, entries, Json.lookup]
    by_cases here : key = "key.substructure"
    · rw [if_pos here, List.find?_cons_of_pos (by simpa using here), ofList_eq]
      cases value <;> rfl
    · rw [if_neg here, List.find?_cons_of_neg (by simpa using here), ih]
      rfl

end ModuleStubs.Node
