import ModuleStubs.Proofs.Json.Escapes

/-! JSON text that was written is read back. The blanks that a style puts between items are
skipped, and each reader stops behind the value that its writer wrote. -/

namespace ModuleStubs.Json

open Text

/-- Values without numbers, in which no object has a key twice and no text a pair of halves. -/
inductive Textual : Json → Prop
  | null : Textual .null
  | bool (b : Bool) : Textual (.bool b)
  | str {s : Wording} (joined : s.Joined) : Textual (.str s)
  | arr {items : List Json} (each : ∀ v ∈ items, Textual v) : Textual (.arr items)
  | obj {fields : List (Wording × Json)} (keys : (fields.map (·.1)).Nodup)
    (joined : ∀ field ∈ fields, field.1.Joined) (each : ∀ field ∈ fields, Textual field.2) :
    Textual (.obj fields)

structure Style.Blank (style : Style) : Prop where
  lineBreak : ∀ depth, ∀ c ∈ style.lineBreak depth, isSpace c = true
  afterColon : ∀ c ∈ style.afterColon, isSpace c = true

theorem Style.blank_indented (width : Nat) : (indented width).Blank := by
  refine ⟨fun depth => List.forall_mem_cons.mpr ⟨rfl, fun c mem => ?_⟩, ?_⟩
  · rw [List.eq_of_mem_replicate mem]
    rfl
  · exact List.forall_mem_singleton.mpr rfl

theorem skipSpace_append {blanks : List Char} (blank : ∀ c ∈ blanks, isSpace c = true)
    (rest : List Char) : skipSpace (blanks ++ rest) = skipSpace rest :=
  List.dropWhile_append_of_pos blank

theorem skipSpace_cons {c : Char} (visible : isSpace c = false) (rest : List Char) :
    skipSpace (c :: rest) = c :: rest :=
  List.dropWhile_cons_of_neg (by simp [visible])

theorem skipSpace_writeString (key : Wording) (rest : List Char) :
    skipSpace (writeString key ++ rest) = writeString key ++ rest := rfl

section

variable {style : Style}

theorem write_eq_cons {v : Json} (textual : v.Textual) (depth : Nat) :
    ∃ c cs, write style depth v = c :: cs ∧ isSpace c = false ∧ c ≠ ']' := by
  cases textual with
  | null => exact ⟨'n', _, rfl, rfl, by decide⟩
  | bool b =>
    cases b with
    | false => exact ⟨'f', _, rfl, rfl, by decide⟩
    | true => exact ⟨'t', _, rfl, rfl, by decide⟩
  | str joined => exact ⟨'"', _, rfl, rfl, by decide⟩
  | @arr items each =>
    cases items with
    | nil => exact ⟨'[', _, rfl, rfl, by decide⟩
    | cons item items => exact ⟨'[', _, rfl, rfl, by decide⟩
  | @obj fields keys joined each =>
    cases fields with
    | nil => exact ⟨'\x7b', _, rfl, rfl, by decide⟩
    | cons field fields => exact ⟨'\x7b', _, rfl, rfl, by decide⟩

theorem skipSpace_write {v : Json} (textual : v.Textual) (depth : Nat) (rest : List Char) :
    skipSpace (write style depth v ++ rest) = write style depth v ++ rest := by
  obtain ⟨c, cs, written, visible, -⟩ := @write_eq_cons style v textual depth
  rw [written, List.cons_append, skipSpace_cons visible]

/-- With enough fuel the value is read from the front of any text that begins with it. -/
def ReadsBack (style : Style) (v : Json) : Prop :=
  ∀ depth fuel rest, 2 * (write style depth v).length ≤ fuel →
    value fuel (write style depth v ++ rest) = .ok (v, rest)

theorem writeString_append (s : Wording) (rest : List Char) :
    writeString s ++ rest = '"' :: (s.flatMap escape ++ '"' :: rest) := by
  simp [writeString]

theorem value_writeString (fuel : Nat) {s : Wording} (joined : s.Joined) (rest : List Char) :
    value (fuel + 1) (writeString s ++ rest) = .ok (.str s, rest) := by
  rw [writeString_append, value, stringBody_escaped joined]
  rfl

theorem value_arr {c : Char} {cs more : List Char} (first : skipSpace cs = c :: more)
    (open' : c ≠ ']') (fuel : Nat) :
    value (fuel + 1) ('[' :: cs) = (do
      let (item, rest) ← value fuel (c :: more)
      let (items, rest) ← itemsAfter fuel (skipSpace rest)
      .ok (.arr (item :: items), rest)) := by
  rw [value, first]
  split
  · next same => exact absurd (List.cons.inj same).1 open'
  · rfl

theorem value_obj {c : Char} {cs more : List Char} (first : skipSpace cs = c :: more)
    (open' : c ≠ '\x7d') (fuel : Nat) :
    value (fuel + 1) ('\x7b' :: cs) = (do
      let (first, rest) ← field fuel (c :: more)
      let (fields, rest) ← fieldsAfter fuel (skipSpace rest)
      .ok (.obj (ofPairs (first :: fields)), rest)) := by
  rw [value, first]
  split
  · next same => exact absurd (List.cons.inj same).1 open'
  · rfl

theorem field_of_key {cs more : List Char} {key : Wording}
    (read : stringBody cs = .ok (key, ':' :: more))
    (fuel : Nat) :
    field (fuel + 1) ('"' :: cs) = (do
      let (item, rest) ← value fuel (skipSpace more)
      .ok ((key, item), rest)) := by
  rw [field, read]
  rfl

variable (blank : style.Blank)
include blank

theorem itemsAfter_writeItems {items : List Json}
    (each : ∀ v ∈ items, v.Textual ∧ ReadsBack style v) {blanks : List Char}
    (closing : ∀ c ∈ blanks, isSpace c = true) (depth fuel : Nat) (rest : List Char)
    (enough : 2 * (writeItems style depth items).length < fuel) :
    itemsAfter fuel (skipSpace (writeItems style depth items ++ (blanks ++ ']' :: rest))) =
      .ok (items, rest) := by
  induction items generalizing fuel with
  | nil =>
    obtain ⟨fuel, rfl⟩ := Nat.exists_eq_succ_of_ne_zero (Nat.ne_of_gt (Nat.zero_lt_of_lt enough))
    rw [writeItems, List.nil_append, skipSpace_append closing, skipSpace_cons rfl, itemsAfter]
  | cons v items ih =>
    obtain ⟨fuel, rfl⟩ := Nat.exists_eq_succ_of_ne_zero (Nat.ne_of_gt (Nat.zero_lt_of_lt enough))
    obtain ⟨⟨textual, reads⟩, others⟩ := List.forall_mem_cons.mp each
    simp only [writeItems, List.length_cons, List.length_append] at enough
    have first := reads depth fuel (writeItems style depth items ++ (blanks ++ ']' :: rest))
      (by omega)
    have later := ih others fuel (by omega)
    simp only [writeItems, List.cons_append, List.append_assoc]
    rw [skipSpace_cons rfl, itemsAfter, skipSpace_append (blank.lineBreak depth),
      skipSpace_write textual, first]
    change (itemsAfter fuel (skipSpace _) >>= _) = _
    rw [later]
    rfl

theorem field_write {key : Wording} {v : Json} (joined : key.Joined) (textual : v.Textual)
    (reads : ReadsBack style v) (depth fuel : Nat) (rest : List Char)
    (enough : 2 * (write style depth v).length ≤ fuel) :
    field (fuel + 1) (writeString key ++ ':' :: (style.afterColon ++
      (write style depth v ++ rest))) = .ok ((key, v), rest) := by
  rw [writeString_append, field_of_key (stringBody_escaped joined _),
    skipSpace_append blank.afterColon, skipSpace_write textual, reads depth fuel rest enough]
  rfl

theorem fieldsAfter_writeFields {fields : List (Wording × Json)}
    (each : ∀ field ∈ fields, field.1.Joined ∧ field.2.Textual ∧ ReadsBack style field.2)
    {blanks : List Char}
    (closing : ∀ c ∈ blanks, isSpace c = true) (depth fuel : Nat) (rest : List Char)
    (enough : 2 * (writeFields style depth fields).length < fuel) :
    fieldsAfter fuel (skipSpace (writeFields style depth fields ++ (blanks ++ '\x7d' :: rest))) =
      .ok (fields, rest) := by
  induction fields generalizing fuel with
  | nil =>
    obtain ⟨fuel, rfl⟩ := Nat.exists_eq_succ_of_ne_zero (Nat.ne_of_gt (Nat.zero_lt_of_lt enough))
    rw [writeFields, List.nil_append, skipSpace_append closing, skipSpace_cons rfl, fieldsAfter]
  | cons field fields ih =>
    obtain ⟨key, v⟩ := field
    obtain ⟨own, others⟩ := List.forall_mem_cons.mp each
    have joined : key.Joined := own.1
    have textual : v.Textual := own.2.1
    have reads : ReadsBack style v := own.2.2
    simp only [writeFields, List.length_cons, List.length_append] at enough
    obtain ⟨fuel, rfl⟩ : ∃ less, fuel = less + 2 := ⟨fuel - 2, by omega⟩
    have first := @field_write style blank key v joined textual reads depth fuel
      (writeFields style depth fields ++ (blanks ++ '\x7d' :: rest)) (by omega)
    have later := ih others (fuel + 1) (by omega)
    simp only [writeFields, List.cons_append, List.append_assoc]
    rw [skipSpace_cons rfl, fieldsAfter, skipSpace_append (blank.lineBreak depth),
      skipSpace_writeString, first]
    change (fieldsAfter (fuel + 1) (skipSpace _) >>= _) = _
    rw [later]
    rfl

theorem readsBack_arr {items : List Json} (each : ∀ v ∈ items, v.Textual ∧ ReadsBack style v) :
    ReadsBack style (.arr items) := by
  intro depth fuel rest enough
  obtain ⟨fuel, rfl⟩ : ∃ less, fuel = less + 1 := by
    refine Nat.exists_eq_add_one.mpr (Nat.lt_of_lt_of_le ?_ enough)
    cases items <;> simp [write]
  cases items with
  | nil => rfl
  | cons first items =>
    obtain ⟨⟨textual, reads⟩, others⟩ := List.forall_mem_cons.mp each
    obtain ⟨c, cs, written, visible, open'⟩ := @write_eq_cons style first textual (depth + 1)
    simp only [write, List.length_cons, List.length_append] at enough
    have head := reads (depth + 1) fuel
      (writeItems style (depth + 1) items ++ (style.lineBreak depth ++ ']' :: rest)) (by omega)
    have tail := itemsAfter_writeItems blank others (blank.lineBreak depth) (depth + 1) fuel rest
      (by omega)
    simp only [write, List.cons_append, List.append_assoc, List.nil_append]
    rw [value_arr (c := c) (by
      rw [skipSpace_append (blank.lineBreak _), skipSpace_write textual, written, List.cons_append])
      open', ← List.cons_append, ← written, head]
    change (itemsAfter fuel (skipSpace _) >>= _) = _
    rw [tail]
    rfl

theorem readsBack_obj {fields : List (Wording × Json)} (keys : (fields.map (·.1)).Nodup)
    (each : ∀ field ∈ fields, field.1.Joined ∧ field.2.Textual ∧ ReadsBack style field.2) :
    ReadsBack style (.obj fields) := by
  intro depth fuel rest enough
  cases fields with
  | nil =>
    obtain ⟨fuel, rfl⟩ : ∃ less, fuel = less + 1 :=
      Nat.exists_eq_add_one.mpr (Nat.lt_of_lt_of_le (by simp [write]) enough)
    rfl
  | cons first fields =>
    obtain ⟨key, v⟩ := first
    obtain ⟨own, others⟩ := List.forall_mem_cons.mp each
    have joined : key.Joined := own.1
    have textual : v.Textual := own.2.1
    have reads : ReadsBack style v := own.2.2
    simp only [write, List.length_cons, List.length_append] at enough
    obtain ⟨fuel, rfl⟩ : ∃ less, fuel = less + 2 := ⟨fuel - 2, by omega⟩
    have head := @field_write style blank key v joined textual reads (depth + 1) fuel
      (writeFields style (depth + 1) fields ++ (style.lineBreak depth ++ '\x7d' :: rest)) (by omega)
    have tail := fieldsAfter_writeFields blank others (blank.lineBreak depth) (depth + 1) (fuel + 1)
      rest (by omega)
    simp only [write, List.cons_append, List.append_assoc, List.nil_append]
    rw [value_obj (skipSpace_append (blank.lineBreak _) _) (by decide)]
    change (field (fuel + 1) (writeString key ++ _) >>= _) = _
    rw [head]
    change (fieldsAfter (fuel + 1) (skipSpace _) >>= _) = _
    rw [tail]
    change Except.ok (obj (ofPairs ((key, v) :: fields)), rest) = _
    rw [ofPairs_of_nodup keys]

theorem readsBack_of_textual {v : Json} (textual : v.Textual) : ReadsBack style v := by
  have fueled : ∀ {cs : List Char} {fuel : Nat}, cs ≠ [] → 2 * cs.length ≤ fuel →
      ∃ less, fuel = less + 1 := fun written enough =>
    Nat.exists_eq_add_one.mpr (Nat.lt_of_lt_of_le
      (Nat.mul_pos Nat.two_pos (List.length_pos_iff.mpr written)) enough)
  induction textual with
  | null =>
    intro depth fuel rest enough
    obtain ⟨fuel, rfl⟩ := fueled (List.cons_ne_nil _ _) enough
    rfl
  | bool b =>
    intro depth fuel rest enough
    cases b
    all_goals
      obtain ⟨fuel, rfl⟩ := fueled (List.cons_ne_nil _ _) enough
      rfl
  | str joined =>
    intro depth fuel rest enough
    obtain ⟨fuel, rfl⟩ := fueled (List.cons_ne_nil _ _) enough
    exact value_writeString fuel joined rest
  | arr each ih => exact readsBack_arr blank fun v mem => ⟨each v mem, ih v mem⟩
  | obj keys joined each ih =>
    exact readsBack_obj blank keys fun field mem => ⟨joined field mem, each field mem, ih field mem⟩

/-- A written text is read back, also with blanks behind it. -/
theorem read_text {v : Json} (textual : v.Textual) {ending : String}
    (ends : ∀ c ∈ ending.toList, isSpace c = true) : read (text style v ++ ending) = .ok v := by
  have chars : (text style v ++ ending).toList = write style 0 v ++ ending.toList := by
    rw [String.toList_append, text, String.toList_ofList]
  have front : value (2 * (write style 0 v ++ ending.toList).length + 1)
      (write style 0 v ++ ending.toList) = .ok (v, ending.toList) :=
    readsBack_of_textual blank textual 0 _ _ (by rw [List.length_append]; omega)
  have behind : skipSpace ending.toList = [] := by
    have skipped := skipSpace_append ends []
    rwa [List.append_nil] at skipped
  rw [read, chars, readChars, skipSpace_write textual, front]
  change (if (skipSpace ending.toList).isEmpty then _ else _) = _
  rw [behind]
  rfl

end

end ModuleStubs.Json
