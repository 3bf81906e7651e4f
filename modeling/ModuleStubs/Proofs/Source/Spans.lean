import ModuleStubs.Project.Run
import ModuleStubs.Proofs.Text.LineEnds

/-! Spans of a stored file and what is read for them from the loaded source. Offsets
count the bytes of the file, but line ends are unified on loading: a carriage return
before a line feed shifts every later span by one byte. -/

namespace ModuleStubs

structure Span (cs : List Char) where
  before : List Char
  covered : List Char
  after : List Char
  whole : before ++ covered ++ after = cs

namespace Span

variable {cs : List Char} (s : Span cs)

def offset : Int := (Text.Utf8.encode s.before).length

def length : Int := (Text.Utf8.encode s.covered).length

def text : String := String.ofList (s.covered.filter (· ≠ '"'))

def ReadBy (source : Source) : Prop :=
  source.textAt? (some s.offset) (some s.length) = some s.text

def full (cs : List Char) : Span cs := ⟨[], cs, [], by simp⟩

end Span

namespace Source

@[simp] theorem clampIndex_natCast {size i : Nat} (inside : i ≤ size) :
    clampIndex size (i : Int) = i := by
  have sign : ¬ (i : Int) < 0 := by omega
  simp only [clampIndex, if_neg sign, Int.toNat_natCast]
  omega

theorem slice_append {α : Type} (front middle back : List α) :
    slice (front ++ middle ++ back) front.length (front.length + middle.length) = middle := by
  have first : front.length ≤ (front ++ middle ++ back).length := by
    simp only [List.length_append]
    omega
  have last : front.length + middle.length ≤ (front ++ middle ++ back).length := by
    simp only [List.length_append]
    omega
  have stop : (front.length : Int) + middle.length =
      ((front.length + middle.length : Nat) : Int) := by
    omega
  rw [slice, stop, clampIndex_natCast first, clampIndex_natCast last, ← List.length_append,
    List.take_left, List.drop_left]

theorem slice_self {α : Type} (items : List α) (position : Int) :
    slice items position position = [] :=
  List.drop_eq_nil_of_le (List.length_take_le _ _)

theorem textAt_zero (s : Source) (offset : Int) : s.textAt offset 0 = "" := by
  have nothing := Text.Utf8.decodeLenient_encode []
  rw [Text.Utf8.encode_nil] at nothing
  rw [textAt, Int.add_zero, slice_self, nothing]
  rfl

theorem textAt?_some (s : Source) (offset length : Int) :
    s.textAt? (some offset) (some length) = some (s.textAt offset length) := rfl

theorem textAt_between (path : Path) (front middle back : List Char) :
    (⟨path, String.ofList (front ++ middle ++ back)⟩ : Source).textAt
        (Text.Utf8.encode front).length (Text.Utf8.encode middle).length =
      String.ofList (middle.filter (· ≠ '"')) := by
  have bytes : (⟨path, String.ofList (front ++ middle ++ back)⟩ : Source).bytes =
      Text.Utf8.encode front ++ Text.Utf8.encode middle ++ Text.Utf8.encode back := by
    simp [Source.bytes]
  rw [textAt, bytes, slice_append, Text.Utf8.decodeLenient_encode]

theorem return_notMem_textAt {s : Source} (clean : '\r' ∉ s.content.toList)
    (offset length : Int) : '\r' ∉ (s.textAt offset length).toList := by
  intro mem
  rw [textAt, String.toList_ofList, List.mem_filter] at mem
  have byte := Text.Utf8.returnByte_mem_of_decodeLenient mem.1
  exact Text.Utf8.return_notMem_encode clean (List.mem_of_mem_take (List.mem_of_mem_drop byte))

def loaded (path : Path) (cs : List Char) : Source :=
  ⟨path, String.ofList (Text.unifyNewlines cs)⟩

end Source

namespace Span

variable {cs : List Char}

/-- Lone carriage returns before a span do no harm. -/
theorem readBy_loaded (s : Span cs) (path : Path) (clean : '\r' ∉ s.covered)
    (single : ¬ Text.HasPair (s.before ++ s.covered)) : s.ReadBy (Source.loaded path cs) := by
  obtain ⟨before, covered, after, rfl⟩ := s
  -- An empty span reads nothing anywhere, even inside a pair.
  by_cases nothing : covered = []
  · subst nothing
    rw [ReadBy, Source.textAt?_some]
    exact congrArg some (Source.textAt_zero _ _)
  · have closed : (before ++ covered).getLast? ≠ some '\r' := by
      rw [List.getLast?_append_of_ne_nil _ nothing]
      exact fun last => clean (List.mem_of_getLast? last)
    have content : Text.unifyNewlines (before ++ covered ++ after) =
        before.map Text.unifiedEnd ++ covered ++ Text.unifyNewlines after := by
      rw [Text.unifyNewlines_append single closed, List.map_append,
        Text.map_unifiedEnd_of_notMem clean]
    have place := Source.textAt_between path (before.map Text.unifiedEnd) covered
      (Text.unifyNewlines after)
    rw [Text.length_encode_unifiedEnd] at place
    rw [ReadBy, Source.textAt?_some, Source.loaded, content]
    exact congrArg some place

/-- A span with a carriage return in it is never read as it stands. -/
theorem not_readBy_loaded (s : Span cs) (path : Path) (held : '\r' ∈ s.covered) :
    ¬ s.ReadBy (Source.loaded path cs) := by
  intro right
  rw [ReadBy, Source.textAt?_some, Option.some.injEq] at right
  have clean : '\r' ∉ (Source.loaded path cs).content.toList := by
    rw [Source.loaded, String.toList_ofList]
    exact Text.return_notMem_unifyNewlines cs
  apply Source.return_notMem_textAt clean s.offset s.length
  rw [right, text, String.toList_ofList, List.mem_filter]
  exact ⟨held, by decide⟩

theorem not_hasPair_of_notMem {s : Span cs} (clean : '\r' ∉ cs) :
    ¬ Text.HasPair (s.before ++ s.covered) := by
  intro pair
  have held : '\r' ∈ s.before ++ s.covered := pair.subset (by simp)
  rw [← s.whole] at clean
  exact clean (List.mem_append_left s.after held)

theorem readBy_loaded_of_notMem (clean : '\r' ∉ cs) (s : Span cs) (path : Path) :
    s.ReadBy (Source.loaded path cs) := by
  have inside : '\r' ∉ s.covered := by
    rw [← s.whole] at clean
    exact fun held => clean (List.mem_append_left _ (List.mem_append_right _ held))
  exact s.readBy_loaded path inside (not_hasPair_of_notMem clean)

theorem forall_readBy_loaded_iff (path : Path) (cs : List Char) :
    (∀ s : Span cs, s.ReadBy (Source.loaded path cs)) ↔ '\r' ∉ cs := by
  constructor
  · intro right held
    exact (full cs).not_readBy_loaded path held (right (full cs))
  · exact fun clean s => s.readBy_loaded_of_notMem clean path

end Span

theorem Disk.readText_of_read {d : Disk} {path : Path} {cs : List Char}
    (stored : d.read path = .ok (Text.Utf8.encode cs)) :
    d.readText path = .ok (String.ofList (Text.unifyNewlines cs)) := by
  rw [Disk.readText, stored]
  change (do
    let cs ← (Text.Utf8.decode (Text.Utf8.encode cs)).mapError TextFault.encoding
    Except.ok (String.ofList (Text.unifyNewlines cs))) = _
  rw [Text.Utf8.decode_encode]
  rfl

namespace Project

/-- A stored text is always loaded. Its spans are read by their place in the file as long
as no carriage return is in them and none stands before a line feed up to their end;
a span with a carriage return is never read right. So every span is read right exactly
when the file has no carriage return. -/
theorem spans_read_from_loaded_source (w : World) (path : Path) (cs : List Char)
    (stored : w.disk.read path = .ok (Text.Utf8.encode cs)) :
    ∃ source, (loadSource path).outcome w = (.ok (some source), w) ∧
      (∀ s : Span cs, '\r' ∉ s.covered → ¬ Text.HasPair (s.before ++ s.covered) →
        s.ReadBy source) ∧
      (∀ s : Span cs, '\r' ∈ s.covered → ¬ s.ReadBy source) ∧
      ((∀ s : Span cs, s.ReadBy source) ↔ '\r' ∉ cs) := by
  refine ⟨Source.loaded path cs, ?_, ?_, ?_, ?_⟩
  · exact outcome_loadSource (Disk.readText_of_read stored)
  · exact fun s clean single => s.readBy_loaded path clean single
  · exact fun s held => s.not_readBy_loaded path held
  · exact Span.forall_readBy_loaded_iff path cs

def worldWith (text : List Char) : World :=
  { disk := { entries := [(["M.swift"], .file (Text.Utf8.encode text))], here := [] } }

def moduleFile : Path := ⟨.relative, ["M.swift"]⟩

theorem read_worldWith (text : List Char) :
    (worldWith text).disk.read moduleFile = .ok (Text.Utf8.encode text) := rfl

def spanAfterReturn : Span "\ufeffÄ\rName(\"Ab\")".toList :=
  ⟨"\ufeffÄ\rName(".toList, "\"Ab\"".toList, ")".toList, by decide⟩

theorem span_read_after_return :
    ∃ source, (loadSource moduleFile).outcome (worldWith "\ufeffÄ\rName(\"Ab\")".toList) =
        (.ok (some source), worldWith "\ufeffÄ\rName(\"Ab\")".toList) ∧
      source.textAt? (some 11) (some 4) = some "Ab" := by
  obtain ⟨source, loading, right, -, -⟩ := spans_read_from_loaded_source
    (worldWith "\ufeffÄ\rName(\"Ab\")".toList) moduleFile _ (read_worldWith _)
  have single : ¬ Text.HasPair (spanAfterReturn.before ++ spanAfterReturn.covered) := by
    unfold Text.HasPair
    decide
  exact ⟨source, loading, right spanAfterReturn (by decide) single⟩

def spanAfterPair : Span "\r\nName(\"Ab\")\r\n".toList :=
  ⟨"\r\nName(".toList, "\"Ab\"".toList, ")\r\n".toList, by decide⟩

/-- A pair of line end characters shifts what is read by one byte. -/
theorem span_misread_after_pair :
    (loadSource moduleFile).outcome (worldWith "\r\nName(\"Ab\")\r\n".toList) =
        (.ok (some ⟨moduleFile, "\nName(\"Ab\")\n"⟩), worldWith "\r\nName(\"Ab\")\r\n".toList) ∧
      spanAfterPair.text = "Ab" ∧
      (⟨moduleFile, "\nName(\"Ab\")\n"⟩ : Source).textAt? (some spanAfterPair.offset)
        (some spanAfterPair.length) = some "Ab)" := by
  refine ⟨?_, ?_, ?_⟩
  · exact outcome_loadSource (Disk.readText_of_read (read_worldWith _))
  · decide
  · decide +kernel

end Project

end ModuleStubs
