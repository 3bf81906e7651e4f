import ModuleStubs.Proofs.Definition.RoundTrip
import ModuleStubs.Proofs.Extraction.Origin
import ModuleStubs.Proofs.Extraction.RootSearch

/-! The texts in a definition that the tool has reported. They come from a tree that was read from
its output, so none of them holds a pair of halves. -/

namespace ModuleStubs

namespace Descriptor

theorem joined_of_bracketed? {name inner : Wording} (found : bracketed? name = some inner)
    (joined : name.Joined) : inner.Joined := by
  rw [eq_of_bracketed? found, Wording.joined_char_cons] at joined
  exact (List.isChain_append.mp joined).1

theorem nameJoined_plain {name : Wording} (joined : name.Joined) :
    NameJoined (plain name).spelling := by
  unfold plain
  split_ifs with empty table marker
  · exact nofun
  · rintro _ ⟨⟩
    exact joined
  · rintro _ ⟨⟩
    exact Wording.joined_ofString _
  · rintro _ ⟨⟩
    exact joined

theorem nameJoined_ofWording {name : Wording} (joined : name.Joined) :
    NameJoined (ofWording name).spelling := by
  fun_induction ofWording name with
  | case1 name inner found ih =>
    rintro _ ⟨⟩
    refine Wording.joined_char_cons.mpr (Wording.Joined.append_char ?_ _)
    cases spelled : (ofWording inner).spelling with
    | none => exact Wording.joined_ofString "None"
    | some text => exact ih (joined_of_bracketed? found joined) text spelled
  | case2 name none => exact nameJoined_plain joined

theorem nameJoined_ofName {name : Option Wording} (joined : NameJoined name) :
    NameJoined (ofName name).spelling := by
  cases name with
  | none => exact nofun
  | some name => exact nameJoined_ofWording (joined name rfl)

end Descriptor

theorem nameJoined_ofString (name : Option String) : NameJoined (name.map Wording.ofString) := by
  intro w given
  obtain ⟨text, -, rfl⟩ := Option.map_eq_some_iff.mp given
  exact Wording.joined_ofString text

namespace Signature

theorem joined_iff {s : Signature} : s.Joined ↔
    (∀ p ∈ s.parameters, NameJoined p.name ∧ NameJoined p.type.spelling) ∧
      NameJoined s.result.spelling := by
  constructor
  · rintro ⟨names, types⟩
    obtain ⟨parameters, result⟩ := every_iff.mp types
    exact ⟨fun p mem => ⟨names p mem, parameters p mem⟩, result⟩
  · rintro ⟨parameters, result⟩
    exact ⟨fun p mem => (parameters p mem).1,
      every_iff.mpr ⟨fun p mem => (parameters p mem).2, result⟩⟩

theorem joined_unresolved : unresolved.Joined :=
  joined_iff.mpr ⟨nofun, by rintro _ ⟨⟩; exact Wording.joined_ofString _⟩

theorem joined_empty : ({} : Signature).Joined := joined_iff.mpr ⟨nofun, nofun⟩

theorem Joined.withoutView {s : Signature} (joined : s.Joined) : s.withoutView.Joined := by
  obtain ⟨parameters, result⟩ := joined_iff.mp joined
  refine joined_iff.mpr ⟨fun p mem => parameters p ?_, result⟩
  exact List.mem_of_mem_tail (List.mem_filter.mp mem).1

end Signature

theorem CursorInfo.joined_ofXml (x : Xml) : (ofXml x).Joined := by
  unfold ofXml
  split_ifs
  · refine Signature.joined_iff.mpr ⟨fun p mem => ?_, ?_⟩
    · obtain ⟨child, -, rfl⟩ := List.mem_map.mp mem
      exact ⟨nameJoined_ofString _, Descriptor.nameJoined_ofName (nameJoined_ofString _)⟩
    · exact Descriptor.nameJoined_ofName (nameJoined_ofString _)
  · exact Signature.joined_empty

namespace Node

theorem Sound.closureSignature {n : Node} (sound : n.Sound) : n.closureSignature.Joined := by
  cases sound with
  | intro name typename offset children =>
    obtain ⟨-, unknown⟩ := Signature.joined_iff.mp Signature.joined_unresolved
    refine Signature.joined_iff.mpr ⟨fun p mem => ?_, unknown⟩
    obtain ⟨child, kept, rfl⟩ := List.mem_map.mp mem
    cases children child (List.mem_filter.mp kept).1 with
    | intro name typename offset children => exact ⟨name, Descriptor.nameJoined_ofName typename⟩

end Node

theorem signatureRule_joined : SignatureRule Node.Sound Signature.Joined where
  child := by
    rintro n ⟨-, -, -, children⟩
    exact children
  closure := fun n sound => sound.closureSignature
  described := by
    intro fields s found
    obtain rfl | ⟨x, rfl⟩ := CursorInfo.of_signature_eq_ok found
    · obtain ⟨-, unknown⟩ := Signature.joined_iff.mp Signature.joined_unresolved
      exact Signature.joined_iff.mpr ⟨nofun, unknown⟩
    · exact CursorInfo.joined_ofXml x
  unresolved := Signature.joined_unresolved
  empty := Signature.joined_empty
  withoutView := fun _ => Signature.Joined.withoutView

theorem Node.Sound.searchRoot {tree : Node} (sound : tree.Sound) {root : List Node}
    (found : tree.searchRoot.root = some root) : ∀ n ∈ root, n.Sound := by
  rw [tree.searchRoot_eq_along] at found
  obtain ⟨marker, first, rfl⟩ := Option.map_eq_some_iff.mp found
  cases Node.sound_of_mem_preorder sound (List.mem_of_find?_eq_some first) with
  | intro name typename offset children => exact children

/-- In a definition that the tool has reported no text holds a pair of halves. -/
theorem Definition.Reported.joined {m : Definition} (reported : m.Reported) :
    m.Throughout Signature.Joined := by
  obtain ⟨x, text, value, tree, root, defaultName, s, t, read, node, found, reached, outcome⟩ :=
    reported
  have sound := Node.sound_of_ofJson? (Json.sound_of_read read) node
  exact throughout_of_extract signatureRule_joined (sound.searchRoot found) reached outcome

end ModuleStubs
