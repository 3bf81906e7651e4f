import ModuleStubs.Proofs.Source.Spans
import ModuleStubs.Proofs.Text.LenientDecoding

/-! What a source reads at any two numbers. A span between characters is read as its own text.
All other numbers have a slice of the bytes as well, whatever it cuts through, and only the
bytes between them count. -/

namespace ModuleStubs

namespace Source

section

variable {α : Type} {items part other : List α} {start stop : Int}

/-- Where a bound lies among a number of items: a negative one counts from the end, and one
that lies outside is moved to the nearer end. -/
def place (size : Nat) (bound : Int) : Int :=
  max 0 (min size (if bound < 0 then size + bound else bound))

/-- The part of a list between two bounds, empty if the second comes before the first. -/
structure IsSlice (items : List α) (start stop : Int) (part : List α) : Prop where
  split : ∃ front back, items = front ++ part ++ back ∧
    (front.length : Int) = place items.length start
  length : (part.length : Int) = max 0 (place items.length stop - place items.length start)

theorem place_eq_clampIndex (size : Nat) (bound : Int) :
    place size bound = (clampIndex size bound : Int) := by
  unfold clampIndex place
  split <;> omega

theorem clampIndex_le (size : Nat) (bound : Int) : clampIndex size bound ≤ size := by
  unfold clampIndex
  split <;> omega

theorem IsSlice.unique (first : IsSlice items start stop part)
    (second : IsSlice items start stop other) : part = other := by
  obtain ⟨front, back, whole, before⟩ := first.split
  obtain ⟨front', back', whole', before'⟩ := second.split
  have fronts : front.length = front'.length := by omega
  have parts : part.length = other.length := by
    have size := first.length
    rw [← second.length] at size
    omega
  rw [whole, List.append_assoc, List.append_assoc] at whole'
  exact (List.append_inj (List.append_inj whole' fronts).2 parts).1

theorem isSlice_slice (items : List α) (start stop : Int) :
    IsSlice items start stop (slice items start stop) := by
  have first := clampIndex_le items.length start
  have last := clampIndex_le items.length stop
  refine ⟨⟨items.take (clampIndex items.length start),
    items.drop (max (clampIndex items.length start) (clampIndex items.length stop)), ?_, ?_⟩, ?_⟩
  · rw [slice]
    rcases Nat.le_total (clampIndex items.length start) (clampIndex items.length stop) with h | h
    · have front : items.take (clampIndex items.length start) =
          (items.take (clampIndex items.length stop)).take (clampIndex items.length start) := by
        rw [List.take_take, Nat.min_eq_left h]
      rw [Nat.max_eq_right h, front, List.take_append_drop, List.take_append_drop]
    · have nothing : (items.take (clampIndex items.length stop)).drop
          (clampIndex items.length start) = [] :=
        List.drop_eq_nil_of_le ((List.length_take_le _ _).trans h)
      rw [nothing, Nat.max_eq_left h, List.append_nil, List.take_append_drop]
  · rw [place_eq_clampIndex, List.length_take, Nat.min_eq_left first]
  · rw [place_eq_clampIndex, place_eq_clampIndex, slice, List.length_drop, List.length_take]
    omega

theorem slice_natCast (items : List α) (start stop : Nat) :
    slice items start stop = (items.take stop).drop start := by
  have clamped : ∀ n : Nat, clampIndex items.length n = min n items.length := by
    intro n
    unfold clampIndex
    rw [if_neg (by omega), Int.toNat_natCast]
  rw [slice, clamped, clamped, ← List.take_eq_take_min]
  rcases Nat.le_total start items.length with inside | outside
  · rw [Nat.min_eq_left inside]
  · have short := List.length_take_le' stop items
    rw [Nat.min_eq_right outside, List.drop_eq_nil_of_le short,
      List.drop_eq_nil_of_le (short.trans outside)]

/-- Two lists that agree between two bounds have the same slice there. -/
theorem slice_congr {items items' : List α} {start stop : Nat}
    (agree : ∀ i : Nat, start ≤ i → i < stop → items'[i]? = items[i]?) :
    slice items' start stop = slice items start stop := by
  rw [slice_natCast, slice_natCast]
  refine List.ext_getElem? fun i => ?_
  rw [List.getElem?_drop, List.getElem?_drop, List.getElem?_take, List.getElem?_take]
  split
  · next inside => exact agree (start + i) (Nat.le_add_right start i) inside
  · rfl

end

/-- A text that the bytes between two bounds are read as: characters, with replacements where
none stands, and no quotes. -/
def ReadAs (bytes : List UInt8) (start stop : Int) (text : String) : Prop :=
  ∃ part cs, IsSlice bytes start stop part ∧ Text.Utf8.Reads part cs ∧
    text = String.ofList (cs.filter (· ≠ '"'))

theorem readAs_iff (s : Source) (offset length : Int) {text : String} :
    ReadAs s.bytes offset (offset + length) text ↔ text = s.textAt offset length := by
  constructor
  · rintro ⟨part, cs, covered, reads, rfl⟩
    rw [textAt, Text.Utf8.reads_iff.mp reads, covered.unique (isSlice_slice _ _ _)]
  · rintro rfl
    exact ⟨_, _, isSlice_slice _ _ _, Text.Utf8.reads_decodeLenient _, rfl⟩

theorem quote_notMem_textAt (s : Source) (offset length : Int) :
    '"' ∉ (s.textAt offset length).toList := by
  rw [textAt, String.toList_ofList, List.mem_filter]
  exact fun held => by simpa using held.2

theorem textAt_congr {s other : Source} {offset length : Nat}
    (agree : ∀ i : Nat, offset ≤ i → i < offset + length → other.bytes[i]? = s.bytes[i]?) :
    other.textAt offset length = s.textAt offset length := by
  have slices := slice_congr agree
  rw [Int.natCast_add] at slices
  rw [textAt, textAt, slices]

theorem readBy_self {s : Source} (span : Span s.content.toList) : span.ReadBy s := by
  have same :
      (⟨s.path, String.ofList (span.before ++ span.covered ++ span.after)⟩ : Source) = s := by
    rw [span.whole, String.ofList_toList]
  have read := textAt_between s.path span.before span.covered span.after
  rw [same] at read
  exact congrArg some read

/-- A span between characters is read as its own text without quotes. Any two numbers give a
text without quotes: what the bytes between these bounds are read as, and nothing else. If they
are not negative, no other byte of the source counts. -/
theorem spans_and_slices_read (s : Source) :
    (∀ span : Span s.content.toList, span.ReadBy s) ∧
    ∀ offset length : Int,
      (∃ text, s.textAt? (some offset) (some length) = some text ∧ '"' ∉ text.toList ∧
        ∀ other, ReadAs s.bytes offset (offset + length) other ↔ other = text) ∧
      (0 ≤ offset → 0 ≤ length → ∀ other : Source,
        (∀ i : Nat, offset ≤ i → i < offset + length → other.bytes[i]? = s.bytes[i]?) →
          other.textAt? (some offset) (some length) = s.textAt? (some offset) (some length)) := by
  refine ⟨readBy_self, fun offset length => ⟨⟨s.textAt offset length, rfl, ?_, ?_⟩, ?_⟩⟩
  · exact s.quote_notMem_textAt offset length
  · exact fun other => s.readAs_iff offset length
  · intro first second other agree
    obtain ⟨offset, rfl⟩ := Int.eq_ofNat_of_zero_le first
    obtain ⟨length, rfl⟩ := Int.eq_ofNat_of_zero_le second
    rw [textAt?_some, textAt?_some, textAt_congr fun i low high => ?_]
    exact agree i (by omega) (by omega)

def accented : Source := ⟨⟨.relative, ["A.swift"]⟩, "\u00e9\"x"⟩

def otherAccented : Source := ⟨⟨.relative, ["B.swift"]⟩, "\u0169\"xyz"⟩

theorem cut_character_replaced :
    accented.textAt? (some 1) (some 3) = some "\ufffdx" ∧
      otherAccented.textAt? (some 1) (some 3) = some "\ufffdx" := by
  have value : accented.textAt? (some 1) (some 3) = some "\ufffdx" := by decide +kernel
  have agree : ∀ i : Nat, (1 : Int) ≤ i → (i : Int) < 1 + 3 →
      otherAccented.bytes[i]? = accented.bytes[i]? := by
    intro i low high
    match i, low, high with
    | 1, _, _ => decide +kernel
    | 2, _, _ => decide +kernel
    | 3, _, _ => decide +kernel
  have same :=
    ((spans_and_slices_read accented).2 1 3).2 (by decide) (by decide) otherAccented agree
  exact ⟨value, same.trans value⟩

end Source

end ModuleStubs
