import ModuleStubs.Extraction.ModuleRoot
import ModuleStubs.Proofs.Json.Escapes
import ModuleStubs.Proofs.Text.DigitCount

/-! What is in a value that was read: no text holds a pair of halves, and no number has more
digits than can be written. The same goes for the nodes of a tree that was read. -/

namespace ModuleStubs

namespace Json

inductive Sound : Json → Prop
  | null : Sound .null
  | bool (b : Bool) : Sound (.bool b)
  | int {n : Int} (short : Text.Numeral.Short n) : Sound (.int n)
  | float (x : Float) : Sound (.float x)
  | str {s : Wording} (joined : s.Joined) : Sound (.str s)
  | arr {items : List Json} (each : ∀ v ∈ items, Sound v) : Sound (.arr items)
  | obj {fields : List (Wording × Json)} (each : ∀ field ∈ fields, Sound field.2) :
    Sound (.obj fields)

theorem forall_mem_put {P : Json → Prop} {key : Wording} {v : Json} {fields : List (Wording × Json)}
    (own : P v) (each : ∀ field ∈ fields, P field.2) : ∀ field ∈ put key v fields, P field.2 := by
  induction fields with
  | nil => exact List.forall_mem_singleton.mpr own
  | cons first fields ih =>
    obtain ⟨head, rest⟩ := List.forall_mem_cons.mp each
    rw [put]
    split
    · exact List.forall_mem_cons.mpr ⟨own, rest⟩
    · exact List.forall_mem_cons.mpr ⟨head, ih rest⟩

theorem forall_mem_ofPairs {P : Json → Prop} {pairs : List (Wording × Json)}
    (each : ∀ pair ∈ pairs, P pair.2) : ∀ field ∈ ofPairs pairs, P field.2 := by
  suffices onto : ∀ fields : List (Wording × Json), (∀ field ∈ fields, P field.2) →
      ∀ field ∈ pairs.foldl (fun fields pair => put pair.1 pair.2 fields) fields, P field.2 from
    onto [] nofun
  induction pairs with
  | nil => exact fun _ held => held
  | cons pair pairs ih =>
    obtain ⟨first, rest⟩ := List.forall_mem_cons.mp each
    exact fun fields held => ih rest _ (forall_mem_put first held)

theorem sound_of_integer {negative : Bool} {ds cs rest : List Char} {v : Json}
    (read : integer negative ds cs = .ok (v, rest)) : v.Sound := by
  unfold integer at read
  split at read
  · next n given =>
    cases read
    have short := Text.Numeral.short_of_read given
    exact .int (by split_ifs <;> simpa [Text.Numeral.Short] using short)
  · cases read

theorem sound_of_unsigned {negative : Bool} {cs rest : List Char} {v : Json}
    (read : unsigned negative cs = .ok (v, rest)) : v.Sound := by
  unfold unsigned at read
  dsimp only at read
  generalize (if cs.head? = some '0' then ['0'] else cs.takeWhile Text.isDigit) = whole at read
  split_ifs at read
  · exact sound_of_integer read
  · cases read
    exact .float _

theorem sound_of_number {cs rest : List Char} {v : Json} (read : number cs = .ok (v, rest)) :
    v.Sound := by
  unfold number at read
  split at read
  · split at read
    · cases read
      exact .float _
    · exact sound_of_unsigned read
  · exact sound_of_unsigned read

theorem sound_of_named? {cs rest : List Char} {v : Json} (read : named? cs = some (v, rest)) :
    v.Sound := by
  have of_map : ∀ {word : List Char} {w : Json}, w.Sound →
      (Text.after? word cs).map (w, ·) = some (v, rest) → v.Sound := by
    intro word w sound found
    obtain ⟨_, -, same⟩ := Option.map_eq_some_iff.mp found
    rwa [← (Prod.mk.inj same).1]
  unfold named? at read
  rcases Option.or_eq_some_iff.mp read with here | ⟨-, read⟩
  · exact of_map .null here
  rcases Option.or_eq_some_iff.mp read with here | ⟨-, read⟩
  · exact of_map (.bool _) here
  rcases Option.or_eq_some_iff.mp read with here | ⟨-, read⟩
  · exact of_map (.bool _) here
  rcases Option.or_eq_some_iff.mp read with here | ⟨-, read⟩
  · exact of_map (.float _) here
  · exact of_map (.float _) read

/-- The readers with the same fuel go together, as each calls the others with less. -/
theorem sound_of_value (fuel : Nat) :
    (∀ cs v rest, value fuel cs = .ok (v, rest) → v.Sound) ∧
    (∀ cs items rest, itemsAfter fuel cs = .ok (items, rest) → ∀ v ∈ items, v.Sound) ∧
    (∀ cs key v rest, field fuel cs = .ok ((key, v), rest) → v.Sound) ∧
    (∀ cs fields rest, fieldsAfter fuel cs = .ok (fields, rest) →
      ∀ field ∈ fields, field.2.Sound) := by
  induction fuel with
  | zero => exact ⟨nofun, nofun, nofun, nofun⟩
  | succ fuel ih =>
    obtain ⟨values, itemLists, pairs, pairLists⟩ := ih
    refine ⟨fun cs v rest read => ?_, fun cs items rest read => ?_, fun cs key v rest read => ?_,
      fun cs fields rest read => ?_⟩
    · unfold value at read
      split at read
      · obtain ⟨⟨body, _⟩, inner, ⟨⟩⟩ := of_map_eq_ok read
        exact .str (joined_of_stringBody inner).1
      · split at read
        · cases read
          exact .arr nofun
        · obtain ⟨⟨first, _⟩, head, read⟩ := of_bind_eq_ok read
          obtain ⟨⟨items, _⟩, tail, ⟨⟩⟩ := of_bind_eq_ok read
          exact .arr (List.forall_mem_cons.mpr ⟨values _ _ _ head, itemLists _ _ _ tail⟩)
      · split at read
        · cases read
          exact .obj nofun
        · obtain ⟨⟨⟨key, first⟩, _⟩, head, read⟩ := of_bind_eq_ok read
          obtain ⟨⟨fields, _⟩, tail, ⟨⟩⟩ := of_bind_eq_ok read
          refine .obj (forall_mem_ofPairs (List.forall_mem_cons.mpr ⟨?_, pairLists _ _ _ tail⟩))
          exact pairs _ _ _ _ head
      · split at read
        · next given =>
          cases read
          exact sound_of_named? given
        · exact sound_of_number read
    · unfold itemsAfter at read
      split at read
      · cases read
        exact nofun
      · obtain ⟨⟨first, _⟩, head, read⟩ := of_bind_eq_ok read
        obtain ⟨⟨items, _⟩, tail, ⟨⟩⟩ := of_bind_eq_ok read
        exact List.forall_mem_cons.mpr ⟨values _ _ _ head, itemLists _ _ _ tail⟩
      · cases read
    · unfold field at read
      split at read
      · obtain ⟨⟨name, more⟩, -, read⟩ := of_bind_eq_ok read
        dsimp only at read
        split at read
        · obtain ⟨⟨first, _⟩, head, ⟨⟩⟩ := of_bind_eq_ok read
          exact values _ _ _ head
        · cases read
      · cases read
    · unfold fieldsAfter at read
      split at read
      · cases read
        exact nofun
      · obtain ⟨⟨⟨key, first⟩, _⟩, head, read⟩ := of_bind_eq_ok read
        obtain ⟨⟨fields, _⟩, tail, ⟨⟩⟩ := of_bind_eq_ok read
        exact List.forall_mem_cons.mpr ⟨pairs _ _ _ _ head, pairLists _ _ _ tail⟩
      · cases read

theorem sound_of_read {text : String} {v : Json} (given : read text = .ok v) : v.Sound := by
  obtain ⟨⟨value, rest⟩, front, ends⟩ := of_bind_eq_ok given
  dsimp only at ends
  split at ends
  · cases ends
    exact (sound_of_value _).1 _ _ _ front
  · cases ends

theorem sound_of_lookup {key : Wording} {v : Json} {fields : List (Wording × Json)}
    (each : ∀ field ∈ fields, field.2.Sound) (found : lookup key fields = some v) : v.Sound := by
  obtain ⟨field, held, rfl⟩ := Option.map_eq_some_iff.mp found
  exact each field (List.mem_of_find?_eq_some held)

end Json

def NameJoined (name : Option Wording) : Prop := ∀ w, name = some w → w.Joined

namespace Node

inductive Sound : Node → Prop
  | intro {n : Node} (name : NameJoined n.name) (typename : NameJoined n.typename)
    (offset : ∀ o, n.offset = some o → Text.Numeral.Short o)
    (children : ∀ c ∈ n.children, Sound c) : Sound n

theorem nameJoined_textField {fields : List (Wording × Json)}
    (each : ∀ field ∈ fields, field.2.Sound) (key : Wording) :
    NameJoined (textField key fields) := by
  intro w found
  obtain ⟨v, held, text⟩ := Option.bind_eq_some_iff.mp found
  cases Json.sound_of_lookup each held with
  | str joined =>
    cases text
    exact joined
  | _ => cases text

theorem short_numberField {fields : List (Wording × Json)} (each : ∀ field ∈ fields, field.2.Sound)
    {key : Wording} {o : Int} (found : numberField key fields = some o) :
    Text.Numeral.Short o := by
  obtain ⟨v, held, number⟩ := Option.bind_eq_some_iff.mp found
  cases Json.sound_of_lookup each held with
  | int short =>
    cases number
    exact short
  | _ => cases number

mutual

theorem sound_of_ofJson? {v : Json} {n : Node} (sound : v.Sound) (given : ofJson? v = some n) :
    n.Sound := by
  cases v with
  | obj fields =>
    cases sound with
    | obj each =>
      rw [ofJson?] at given
      cases given
      exact .intro (nameJoined_textField each _) (nameJoined_textField each _)
        (fun o found => short_numberField each found) (sound_of_substructure each)
  | _ => cases given

theorem sound_of_substructure {fields : List (Wording × Json)}
    (each : ∀ field ∈ fields, field.2.Sound) : ∀ n ∈ substructure fields, n.Sound := by
  cases fields with
  | nil => exact nofun
  | cons field fields =>
    obtain ⟨key, v⟩ := field
    obtain ⟨first, rest⟩ := List.forall_mem_cons.mp each
    rw [substructure]
    split
    · exact sound_of_ofList first
    · exact sound_of_substructure rest

theorem sound_of_ofList {v : Json} (sound : v.Sound) : ∀ n ∈ ofList v, n.Sound := by
  cases v with
  | arr items =>
    cases sound with
    | arr each => exact sound_of_ofItems each
  | _ => exact nofun

theorem sound_of_ofItems {items : List Json} (each : ∀ v ∈ items, v.Sound) :
    ∀ n ∈ ofItems items, n.Sound := by
  cases items with
  | nil => exact nofun
  | cons item items =>
    obtain ⟨first, rest⟩ := List.forall_mem_cons.mp each
    rw [ofItems]
    split
    · next node given =>
      exact List.forall_mem_cons.mpr ⟨sound_of_ofJson? first given, sound_of_ofItems rest⟩
    · exact sound_of_ofItems rest

end

end Node

mutual

theorem Node.sound_of_mem_preorder {n k : Node} (sound : n.Sound) (mem : k ∈ n.preorder) :
    k.Sound := by
  obtain ⟨kind, typename, name, offset, length, children⟩ := n
  rw [Node.preorder] at mem
  rcases List.mem_cons.mp mem with rfl | below
  · exact sound
  · cases sound with
    | intro name typename offset children => exact sound_of_mem_preorders children below

theorem sound_of_mem_preorders {ns : List Node} {k : Node} (each : ∀ n ∈ ns, n.Sound)
    (mem : k ∈ preorders ns) : k.Sound := by
  cases ns with
  | nil =>
    rw [preorders] at mem
    cases mem
  | cons n ns =>
    obtain ⟨first, rest⟩ := List.forall_mem_cons.mp each
    rw [preorders] at mem
    rcases List.mem_append.mp mem with here | later
    · exact Node.sound_of_mem_preorder first here
    · exact sound_of_mem_preorders rest later

end

end ModuleStubs
