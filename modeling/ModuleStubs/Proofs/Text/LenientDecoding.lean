import ModuleStubs.Proofs.Text.Encoding

/-! What the lenient decoding makes of any bytes. Codes of characters read as these characters.
Where no code stands, the longest piece that begins one reads as a single replacement character,
or a single byte where none begins. -/

namespace ModuleStubs.Text.Utf8

def IsLead (b : UInt8) : Prop := b.toNat < 128 ∨ 194 ≤ b.toNat ∧ b.toNat < 245

def fitsAt (b : UInt8) : Nat → UInt8 → Bool
  | 0, c => secondFits b.toNat c
  | _ + 1, c => isTail c

theorem secondFits_of_low {lead : Nat} (low : lead < 224) (c : UInt8) :
    secondFits lead c = isTail c := by
  unfold secondFits
  rw [if_neg (by omega), if_neg (by omega), if_neg (by omega), if_neg (by omega)]

theorem fitsAt_of_front {b : UInt8} {rest : List UInt8} {c : Char} {more : Nat}
    (h : front b rest = .char c more) :
    IsLead b ∧ ∀ i d, i < more → rest[i]? = some d → fitsAt b i d = true := by
  revert h
  unfold IsLead
  fun_cases front b rest
  all_goals intro h
  all_goals try contradiction
  all_goals obtain ⟨rfl, rfl⟩ := Front.char.inj h
  all_goals refine ⟨by omega, fun i d inside found => ?_⟩
  case case1 => exact absurd inside (Nat.not_lt_zero i)
  case case4 low high _ _ tail =>
    obtain rfl : i = 0 := by omega
    obtain rfl := Option.some.inj found
    exact (secondFits_of_low high _).trans tail
  case case11 =>
    rcases i with _ | _ | i
    · simp_all +zetaDelta [fitsAt]
    · simp_all +zetaDelta [fitsAt]
    · omega
  case case21 =>
    rcases i with _ | _ | _ | i
    · simp_all +zetaDelta [fitsAt]
    · simp_all +zetaDelta [fitsAt]
    · simp_all +zetaDelta [fitsAt]
    · omega

theorem misfit_of_front {b : UInt8} {rest : List UInt8} {why : Fault} {more : Nat}
    (h : front b rest = .broken why more) (lead : IsLead b) {c : UInt8}
    (next : rest[more]? = some c) : fitsAt b more c = false := by
  revert h
  fun_cases front b rest
  all_goals intro h
  all_goals try contradiction
  all_goals obtain ⟨rfl, rfl⟩ := Front.broken.inj h
  case case2 | case22 =>
    unfold IsLead at lead
    omega
  case case5 high _ _ misfit =>
    obtain rfl := Option.some.inj next
    exact (secondFits_of_low high _).trans (Bool.not_eq_true _ ▸ misfit)
  all_goals simp_all +zetaDelta [fitsAt]

def Begins (piece : List UInt8) : Prop := ∃ c, piece <+: String.utf8EncodeChar c

/-- A piece that stands for no character: there is none at this place, and the piece is the
longest one that begins a code, or a single byte where none does. -/
structure Stray (piece rest : List UInt8) : Prop where
  unread : ∀ c, ¬ String.utf8EncodeChar c <+: piece ++ rest
  begun : piece.length = 1 ∨ Begins piece ∧ piece ≠ []
  longest : ∀ longer, longer <+: piece ++ rest → Begins longer → longer.length ≤ piece.length

/-- Bytes as characters, with one replacement character for each stray piece. -/
inductive Reads : List UInt8 → List Char → Prop
  | done : Reads [] []
  | char (c : Char) {rest : List UInt8} {cs : List Char} (later : Reads rest cs) :
    Reads (String.utf8EncodeChar c ++ rest) (c :: cs)
  | stray {piece rest : List UInt8} {cs : List Char} (stray : Stray piece rest)
    (later : Reads rest cs) : Reads (piece ++ rest) (replacement :: cs)

section

variable {b c d : UInt8}

theorem isTail_first : isTail 128 = true := by decide

theorem begins_two (low : 224 ≤ b.toNat) (high : b.toNat < 245)
    (second : secondFits b.toNat c = true) : Begins [b, c] := by
  by_cases short : b.toNat < 240
  · exact ⟨_, by rw [code_three low short second isTail_first]; exact ⟨[128], rfl⟩⟩
  · exact ⟨_, by
      rw [code_four (by omega) high second isTail_first isTail_first]
      exact ⟨[128, 128], rfl⟩⟩

theorem begins_three (low : 240 ≤ b.toNat) (high : b.toNat < 245)
    (second : secondFits b.toNat c = true) (third : isTail d = true) : Begins [b, c, d] :=
  ⟨_, by rw [code_four low high second third isTail_first]; exact ⟨[128], rfl⟩⟩

end

theorem begins_of_front {b : UInt8} {rest : List UInt8} {why : Fault} {more : Nat}
    (h : front b rest = .broken why more) : more = 0 ∨ Begins (b :: rest.take more) := by
  revert h
  fun_cases front b rest
  all_goals intro h
  all_goals try contradiction
  all_goals obtain ⟨rfl, rfl⟩ := Front.broken.inj h
  all_goals try exact .inl rfl
  case case7 low high _ second => exact .inr (begins_two (by omega) (by omega) second)
  case case10 low high _ _ _ second _ =>
    exact .inr (begins_two (by omega) (by omega) (by simpa using second))
  case case13 low high _ second => exact .inr (begins_two (by omega) high second)
  case case16 low high _ _ second _ =>
    exact .inr (begins_two (by omega) high (by simpa using second))
  case case17 low high _ _ second third =>
    exact .inr (begins_three (by omega) high (by simpa using second) (by simpa using third))
  case case19 low high _ _ _ _ second _ =>
    exact .inr (begins_two (by omega) high (by simpa using second))
  case case20 low high _ _ _ _ second third _ =>
    exact .inr (begins_three (by omega) high (by simpa using second) (by simpa using third))

theorem length_le_of_begins {b : UInt8} {rest longer : List UInt8} {why : Fault} {more : Nat}
    (h : front b rest = .broken why more) (starts : longer <+: b :: rest) (begun : Begins longer) :
    longer.length ≤ (b :: rest.take more).length := by
  obtain ⟨c, inCode⟩ := begun
  obtain ⟨first, tail, code, read⟩ := front_encodeChar c
  obtain ⟨lead, fits⟩ := fitsAt_of_front (read [])
  rw [code] at inCode
  cases longer with
  | nil => exact Nat.zero_le _
  | cons x later =>
    obtain ⟨rfl, ⟨behind, rfl⟩⟩ := List.cons_prefix_cons.mp starts
    obtain ⟨rfl, ⟨behind', rfl⟩⟩ := List.cons_prefix_cons.mp inCode
    refine Nat.succ_le_succ (Nat.le_of_not_lt fun long => ?_)
    rw [List.length_take, List.length_append] at long
    have inside : more < later.length := by omega
    have next : (later ++ behind)[more]? = some later[more] := by
      rw [List.getElem?_append_left inside, List.getElem?_eq_getElem inside]
    have here : (later ++ behind' ++ [])[more]? = some later[more] := by
      rw [List.append_nil, List.getElem?_append_left inside, List.getElem?_eq_getElem inside]
    have wider : more < (later ++ behind').length := by
      rw [List.length_append]
      omega
    have misfit := misfit_of_front h lead next
    rw [fits more _ wider here] at misfit
    cases misfit

theorem not_code_prefix_of_front {b : UInt8} {rest : List UInt8} {why : Fault} {more : Nat}
    (h : front b rest = .broken why more) (c : Char) :
    ¬ String.utf8EncodeChar c <+: b :: rest := by
  rintro ⟨behind, whole⟩
  obtain ⟨first, tail, code, read⟩ := front_encodeChar c
  rw [code, List.cons_append] at whole
  obtain ⟨rfl, rfl⟩ := List.cons.inj whole
  rw [read behind] at h
  cases h

theorem stray_of_front {b : UInt8} {rest : List UInt8} {why : Fault} {more : Nat}
    (h : front b rest = .broken why more) : Stray (b :: rest.take more) (rest.drop more) := by
  have whole : b :: rest.take more ++ rest.drop more = b :: rest := by
    rw [List.cons_append, List.take_append_drop]
  refine ⟨?_, ?_, ?_⟩
  · rw [whole]
    exact not_code_prefix_of_front h
  · rcases begins_of_front h with rfl | begun
    · exact .inl rfl
    · exact .inr ⟨begun, List.cons_ne_nil _ _⟩
  · rw [whole]
    exact fun longer starts begun => length_le_of_begins h starts begun

namespace Stray

variable {piece rest piece' rest' : List UInt8}

theorem ne_nil (s : Stray piece rest) : piece ≠ [] := by
  rcases s.begun with single | ⟨_, filled⟩
  · exact List.ne_nil_of_length_eq_add_one single
  · exact filled

theorem length_le (s : Stray piece rest) (s' : Stray piece' rest')
    (whole : piece ++ rest = piece' ++ rest') : piece.length ≤ piece'.length := by
  rcases s.begun with single | ⟨begun, _⟩
  · rw [single]
    exact List.length_pos_iff.mpr s'.ne_nil
  · exact s'.longest piece (whole ▸ List.prefix_append piece rest) begun

theorem unique (s : Stray piece rest) (s' : Stray piece' rest')
    (whole : piece ++ rest = piece' ++ rest') : piece = piece' ∧ rest = rest' :=
  List.append_inj whole (Nat.le_antisymm (s.length_le s' whole) (s'.length_le s whole.symm))

end Stray

theorem reads_decodeLenient (bytes : List UInt8) : Reads bytes (decodeLenient bytes) := by
  fun_induction decodeLenient bytes with
  | case1 => exact .done
  | case2 b rest c more read ih =>
    rw [← code_of_front read]
    exact .char c ih
  | case3 b rest why more read ih =>
    have later := Reads.stray (stray_of_front read) ih
    rwa [List.cons_append, List.take_append_drop] at later

/-- There is only one way to read bytes, and the lenient decoding takes it. -/
theorem reads_iff {bytes : List UInt8} {cs : List Char} :
    Reads bytes cs ↔ cs = decodeLenient bytes := by
  constructor
  · intro reads
    induction reads with
    | done => rw [decodeLenient]
    | @char c rest cs later ih =>
      have decoded := decodeLenient_encode_append [c] rest
      rw [encode_cons, encode_nil, List.append_nil] at decoded
      rw [decoded, ← ih, List.singleton_append]
    | @stray piece rest cs stray later ih =>
      obtain ⟨b, tail, whole⟩ := List.exists_cons_of_ne_nil
        (List.append_ne_nil_of_left_ne_nil stray.ne_nil rest)
      rw [whole, decodeLenient]
      cases verdict : front b tail with
      | char c more =>
        refine absurd ?_ (stray.unread c)
        rw [whole, ← code_of_front verdict]
        exact List.prefix_append _ _
      | broken why more =>
        have split : piece ++ rest = b :: tail.take more ++ tail.drop more := by
          rw [whole, List.cons_append, List.take_append_drop]
        rw [ih, (stray.unique (stray_of_front verdict) split).2]
  · rintro rfl
    exact reads_decodeLenient bytes

end ModuleStubs.Text.Utf8
