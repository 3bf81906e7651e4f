import ModuleStubs.Text.Wording

/-! JSON values. Objects keep the order in which their keys first came. -/

namespace ModuleStubs

inductive Json where
  | null
  | bool (b : Bool)
  | int (n : Int)
  | float (x : Float)
  | str (s : Wording)
  | arr (items : List Json)
  | obj (fields : List (Wording × Json))
  deriving Inhabited

namespace Json

/-- Sets a key: the first place of the key is kept, the last value wins. -/
def put (key : Wording) (value : Json) : List (Wording × Json) → List (Wording × Json)
  | [] => [(key, value)]
  | field :: rest => if field.1 = key then (key, value) :: rest else field :: put key value rest

def ofPairs (pairs : List (Wording × Json)) : List (Wording × Json) :=
  pairs.foldl (fun fields pair => put pair.1 pair.2 fields) []

def lookup (key : Wording) (fields : List (Wording × Json)) : Option Json :=
  (fields.find? fun field => field.1 = key).map (·.2)

def fields? : Json → Option (List (Wording × Json))
  | .obj fields => some fields
  | _ => none

def str? : Json → Option Wording
  | .str s => some s
  | _ => none

def int? : Json → Option Int
  | .int n => some n
  | _ => none

@[simp] theorem lookup_put_self (key : Wording) (value : Json) (fields : List (Wording × Json)) :
    lookup key (put key value fields) = some value := by
  induction fields with
  | nil => simp [put, lookup]
  | cons field rest ih =>
    by_cases h : field.1 = key
    · simp [put, lookup, h]
    · simpa [put, lookup, h] using ih

theorem lookup_put_of_ne {key other : Wording} (h : other ≠ key) (value : Json)
    (fields : List (Wording × Json)) :
    lookup other (put key value fields) = lookup other fields := by
  induction fields with
  | nil => simp [put, lookup, Ne.symm h]
  | cons field rest ih =>
    by_cases hk : field.1 = key
    · simp [put, lookup, hk, Ne.symm h]
    · by_cases ho : field.1 = other
      · rw [put, if_neg hk]; simp [lookup, ho]
      · simpa [put, lookup, hk, ho] using ih

theorem put_of_notMem {key : Wording} {fields : List (Wording × Json)}
    (fresh : key ∉ fields.map (·.1)) (value : Json) :
    put key value fields = fields ++ [(key, value)] := by
  induction fields with
  | nil => rfl
  | cons field rest ih =>
    rw [List.map_cons, List.mem_cons, not_or] at fresh
    rw [put, if_neg (Ne.symm fresh.1), ih fresh.2, List.cons_append]

theorem ofPairs_of_nodup {pairs : List (Wording × Json)} (keys : (pairs.map (·.1)).Nodup) :
    ofPairs pairs = pairs := by
  suffices onto : ∀ fields, ((fields ++ pairs).map (·.1)).Nodup →
      pairs.foldl (fun fields pair => put pair.1 pair.2 fields) fields = fields ++ pairs from
    onto [] keys
  induction pairs with
  | nil => simp
  | cons pair pairs ih =>
    intro fields nodup
    have fresh : pair.1 ∉ fields.map (·.1) := by
      rw [List.map_append, List.map_cons, List.nodup_append] at nodup
      exact fun mem => nodup.2.2 _ mem _ List.mem_cons_self rfl
    rw [List.foldl_cons, put_of_notMem fresh]
    have next : ((fields ++ [pair] ++ pairs).map (·.1)).Nodup := by
      rw [List.append_assoc]
      exact nodup
    rw [ih (List.nodup_cons.mp keys).2 _ next, List.append_assoc, List.singleton_append]

end Json

end ModuleStubs
