import Mathlib.Tactic.SplitIfs
import ModuleStubs.Proofs.Yaml.Lines
import ModuleStubs.Yaml.Load

/-! A mapping of the outermost level from its text: keys with a word, with a text in double
quotes, or with a sequence of such texts below. -/

namespace ModuleStubs.Yaml

inductive FieldValue where
  | plain (negative : Bool) (word : Word)
  | quoted (text : List Char)
  | items (first : List Char) (more : List (List Char))

structure Field where
  key : Key
  value : FieldValue

namespace Field

def lines (f : Field) : List Line :=
  match f.value with
  | .plain negative word => [.entry f.key (.plain negative word)]
  | .quoted text => [.entry f.key (.quoted text)]
  | .items first more => .entry f.key .absent :: (first :: more).map .item

end Field

namespace FieldValue

def tokens : FieldValue → List Token
  | .plain negative word => [.scalar (signedWord negative word) true]
  | .quoted text => [.scalar text false]
  | .items first more => (first :: more).flatMap fun text => [.blockEntry, .scalar text false]

def node : FieldValue → Node
  | .plain negative word =>
    .scalar (Tag.ofPlain (signedWord negative word)) (signedWord negative word)
  | .quoted text => .scalar .str text
  | .items first more => .seq .seq ((first :: more).map (.scalar .str))

end FieldValue

namespace Field

def tokens (f : Field) : List Token :=
  .key :: .scalar f.key.chars true :: .value :: f.value.tokens

def node (f : Field) : Node × Node :=
  (.scalar (Tag.ofPlain f.key.chars) f.key.chars, f.value.node)

theorem lines_eq_cons (f : Field) : ∃ value more, f.lines = .entry f.key value :: more := by
  rcases f with ⟨key, ⟨negative, word⟩ | text | ⟨first, more⟩⟩
  · exact ⟨_, _, rfl⟩
  · exact ⟨_, _, rfl⟩
  · exact ⟨_, _, rfl⟩

theorem tokens_lines (f : Field) : f.lines.flatMap Line.tokens = f.tokens := by
  rcases f with ⟨key, ⟨negative, word⟩ | text | ⟨first, more⟩⟩
  · rfl
  · rfl
  · simp [lines, tokens, FieldValue.tokens, Line.tokens, LineValue.tokens, List.flatMap_map]

end Field

namespace Composer

variable (handles : Handles) (anchors : List (List Char × Option Node))

theorem node_of_content {fuel : Nat} {position : Position} {t : Token} {rest : List Token}
    {result : Node × Composer} (noAlias : ∀ name, t ≠ .alias name)
    (bare : properties handles ⟨t :: rest, anchors⟩ = .ok (⟨none, .absent⟩, ⟨t :: rest, anchors⟩))
    (read : content fuel handles position ⟨none, .absent⟩ ⟨t :: rest, anchors⟩ = .ok result) :
    node (fuel + 1) handles position ⟨t :: rest, anchors⟩ = .ok result := by
  rw [node]
  split
  · next name more same => exact absurd (List.cons.inj same).1 (noAlias name)
  · rw [bare]
    change (content fuel handles position ⟨none, .absent⟩ ⟨t :: rest, anchors⟩ >>= _) = _
    rw [read]
    rfl

theorem node_scalar (fuel : Nat) (position : Position) (text : List Char) (plain : Bool)
    (rest : List Token) :
    node (fuel + 2) handles position ⟨.scalar text plain :: rest, anchors⟩ =
      .ok (.scalar (NodeTag.ofScalar .absent plain text) text, ⟨rest, anchors⟩) := rfl

theorem itemUnless_scalar (fuel : Nat) (position : Position) {ends : Token → Bool}
    {text : List Char} {plain : Bool} (goesOn : ends (.scalar text plain) = false)
    (rest : List Token) :
    itemUnless (fuel + 3) handles position ends ⟨.scalar text plain :: rest, anchors⟩ =
      .ok (.scalar (NodeTag.ofScalar .absent plain text) text, ⟨rest, anchors⟩) := by
  rw [itemUnless, sees]
  simp [goesOn, node_scalar]

theorem indentlessItems_cons {fuel : Nat} {item : Node} {items : List Node} {rest : List Token}
    {r after : Composer}
    (first : itemUnless fuel handles .block endsIndentless ⟨rest, anchors⟩ = .ok (item, r))
    (others : indentlessItems fuel handles r = .ok (items, after)) :
    indentlessItems (fuel + 1) handles ⟨.blockEntry :: rest, anchors⟩ =
      .ok (item :: items, after) := by
  have mark : sees ⟨.blockEntry :: rest, anchors⟩ isBlockEntry = true := rfl
  have dropped : drop ⟨.blockEntry :: rest, anchors⟩ = ⟨rest, anchors⟩ := rfl
  simp only [indentlessItems, mark, dropped, if_true, first]
  change (indentlessItems fuel handles r >>= _) = _
  rw [others]
  rfl

/-- The items below a key end before a token that is not the mark of one. -/
theorem indentlessItems_texts (texts : List (List Char)) {rest : List Token}
    (ends : ∀ t ∈ rest.head?, isBlockEntry t = false) (fuel : Nat) :
    indentlessItems (fuel + texts.length + 3) handles
        ⟨(texts.flatMap fun text => [.blockEntry, .scalar text false]) ++ rest, anchors⟩ =
      .ok (texts.map (.scalar .str), ⟨rest, anchors⟩) := by
  induction texts with
  | nil =>
    have unseen : sees ⟨rest, anchors⟩ isBlockEntry = false := by
      cases rest with
      | nil => rfl
      | cons t rest => exact ends t rfl
    simp [indentlessItems, unseen]
  | cons text texts ih =>
    have item := itemUnless_scalar handles anchors (fuel + texts.length) .block
      (show endsIndentless (.scalar text false) = false from rfl)
      ((texts.flatMap fun text => [.blockEntry, .scalar text false]) ++ rest)
    exact indentlessItems_cons handles anchors item ih

theorem node_indentless {fuel : Nat} {rest : List Token} {items : List Node} {after : Composer}
    (read : indentlessItems fuel handles ⟨.blockEntry :: rest, anchors⟩ = .ok (items, after)) :
    node (fuel + 2) handles .blockValue ⟨.blockEntry :: rest, anchors⟩ =
      .ok (.seq .seq items, after) := by
  refine node_of_content handles anchors (by simp) rfl ?_
  change (indentlessItems fuel handles ⟨.blockEntry :: rest, anchors⟩ >>= _) = _
  rw [read]
  rfl

theorem valueOrEmpty_field (value : FieldValue) {rest : List Token}
    (ends : ∀ t ∈ rest.head?, isBlockEntry t = false) {fuel : Nat}
    (enough : value.tokens.length + 7 ≤ fuel) :
    valueOrEmpty fuel handles .blockValue endsBlockValue
      ⟨.value :: (value.tokens ++ rest), anchors⟩ = .ok (value.node, ⟨rest, anchors⟩) := by
  obtain ⟨more, rfl⟩ := Nat.exists_eq_add_of_le' enough
  cases value with
  | plain negative word =>
    have goesOn : endsBlockValue (.scalar (signedWord negative word) true) = false := rfl
    exact itemUnless_scalar handles anchors (more + 4) .blockValue goesOn rest
  | quoted text =>
    have goesOn : endsBlockValue (.scalar text false) = false := rfl
    exact itemUnless_scalar handles anchors (more + 4) .blockValue goesOn rest
  | items first texts =>
    have count : (FieldValue.items first texts).tokens.length = 2 * texts.length + 2 := by
      simp [FieldValue.tokens, List.map_const', Nat.mul_comm]
    have read := indentlessItems_texts handles anchors (first :: texts) ends
      (more + texts.length + 1)
    have split : more + ((FieldValue.items first texts).tokens.length + 7) =
        more + texts.length + 1 + (first :: texts).length + 3 + 2 + 1 + 1 := by
      rw [count, List.length_cons]
      omega
    rw [split]
    exact node_indentless handles anchors read

theorem blockEntries_cons {fuel : Nat} {key value : Node} {entries : List (Node × Node)}
    {rest : List Token} {atValue next after : Composer}
    (first : itemUnless fuel handles .blockValue endsBlockValue ⟨rest, anchors⟩ =
      .ok (key, atValue))
    (second : valueOrEmpty fuel handles .blockValue endsBlockValue atValue = .ok (value, next))
    (others : blockEntries fuel handles next = .ok (entries, after)) :
    blockEntries (fuel + 1) handles ⟨.key :: rest, anchors⟩ =
      .ok ((key, value) :: entries, after) := by
  change (itemUnless fuel handles .blockValue endsBlockValue ⟨rest, anchors⟩ >>= _) = _
  rw [first]
  change (valueOrEmpty fuel handles .blockValue endsBlockValue atValue >>= _) = _
  rw [second]
  change (blockEntries fuel handles next >>= _) = _
  rw [others]
  rfl

/-- One field after another, by induction on the fields; the mapping ends with its mark. -/
theorem blockEntries_fields (fields : List Field) (rest : List Token) {fuel : Nat}
    (enough : (fields.flatMap Field.tokens).length + 8 ≤ fuel) :
    blockEntries fuel handles ⟨fields.flatMap Field.tokens ++ .blockEnd :: rest, anchors⟩ =
      .ok (fields.map Field.node, ⟨rest, anchors⟩) := by
  induction fields generalizing fuel with
  | nil =>
    obtain ⟨more, rfl⟩ := Nat.exists_eq_add_of_le' enough
    rfl
  | cons field fields ih =>
    have shorter : (fields.flatMap Field.tokens).length + 3 + field.value.tokens.length =
        ((field :: fields).flatMap Field.tokens).length := by
      simp only [List.flatMap_cons, List.length_append, Field.tokens, List.length_cons]
      omega
    obtain ⟨fuel, rfl⟩ : ∃ less, fuel = less + 3 + 1 := ⟨fuel - 4, by omega⟩
    have ends : ∀ t ∈ (fields.flatMap Field.tokens ++ .blockEnd :: rest).head?,
        isBlockEntry t = false := by
      cases fields <;> rintro _ ⟨⟩ <;> rfl
    have goesOn : endsBlockValue (.scalar field.key.chars true) = false := rfl
    have key := itemUnless_scalar handles anchors fuel .blockValue goesOn
      (.value :: (field.value.tokens ++ (fields.flatMap Field.tokens ++ .blockEnd :: rest)))
    have value := valueOrEmpty_field handles anchors field.value ends
      (show field.value.tokens.length + 7 ≤ fuel + 3 by omega)
    have others := ih (show _ ≤ fuel + 3 by omega)
    have split : (field :: fields).flatMap Field.tokens ++ .blockEnd :: rest =
        .key :: .scalar field.key.chars true :: .value ::
          (field.value.tokens ++ (fields.flatMap Field.tokens ++ .blockEnd :: rest)) := by
      simp [Field.tokens]
    rw [split]
    exact blockEntries_cons handles anchors key value others

theorem node_mapping {fuel : Nat} {rest : List Token} {entries : List (Node × Node)}
    {after : Composer} (read : blockEntries fuel handles ⟨rest, anchors⟩ = .ok (entries, after)) :
    node (fuel + 2) handles .block ⟨.blockMappingStart :: rest, anchors⟩ =
      .ok (.map .map entries, after) := by
  refine node_of_content handles anchors (by simp) rfl ?_
  change (blockEntries fuel handles ⟨rest, anchors⟩ >>= _) = _
  rw [read]
  rfl

end Composer

theorem document_fields (fields : List Field) :
    document (.blockMappingStart :: (fields.flatMap Field.tokens ++ [.blockEnd, .streamEnd])) =
      .ok (some (.map .map (fields.map Field.node))) := by
  have count : composerFuel (.blockMappingStart ::
      (fields.flatMap Field.tokens ++ [.blockEnd, .streamEnd])) =
        4 * (fields.flatMap Field.tokens).length + 14 + 2 := by
    simp only [composerFuel, List.length_cons, List.length_append, List.length_nil]
    omega
  have entries := Composer.blockEntries_fields standardHandles [] fields [.streamEnd]
    (show _ ≤ 4 * (fields.flatMap Field.tokens).length + 14 by omega)
  have root : rootNode standardHandles (.blockMappingStart ::
      (fields.flatMap Field.tokens ++ [.blockEnd, .streamEnd])) =
        .ok (.map .map (fields.map Field.node), ⟨[.streamEnd], []⟩) := by
    rw [rootNode, count]
    exact Composer.node_mapping standardHandles [] entries
  change (rootNode standardHandles _ >>= _) = _
  rw [root]
  rfl

namespace FieldValue

def result (limit : Text.Numeral.Limit) : FieldValue → Except Fault Value
  | .plain negative word =>
    Scalar.value limit (Tag.ofPlain (signedWord negative word)) (signedWord negative word)
  | .quoted text => .ok (.str (String.ofList text))
  | .items first more => .ok (.seq ((first :: more).map fun text => .str (String.ofList text)))

def nested (value : FieldValue) : List Node :=
  match value with
  | .items _ _ => [value.node]
  | _ => []

end FieldValue

def Field.result (limit : Text.Numeral.Limit) (f : Field) : Except Fault (Value × Value) :=
  (f.value.result limit).map fun v => (.str (String.ofList f.key.chars), v)

namespace Node

variable {limit : Text.Numeral.Limit}

theorem isCollection_ofPlain (cs : List Char) : (Tag.ofPlain cs).isCollection = false := by
  unfold Tag.ofPlain
  dsimp only
  split_ifs <;> rfl

theorem simple_scalar {tag : Tag} (plain : tag.isCollection = false) (text : List Char) :
    (Node.scalar tag text).simple limit = (Scalar.value limit tag text).map some := by
  simp [simple, Node.tag, plain, scalarText?]

theorem checkItem_scalar {tag : Tag} (plain : tag.isCollection = false) (text : List Char) :
    (Node.scalar tag text).checkItem limit = (Scalar.value limit tag text).map fun _ => [] := by
  rw [checkItem, simple_scalar plain]
  cases Scalar.value limit tag text <;> rfl

theorem checkItem_field (value : FieldValue) :
    value.node.checkItem limit = (value.result limit).map fun _ => value.nested := by
  cases value with
  | plain negative word => exact checkItem_scalar (isCollection_ofPlain _) _
  | quoted text => rfl
  | items first more => rfl

theorem value_scalar {tag : Tag} (plain : tag.isCollection = false) (text : List Char)
    (fuel : Nat) : (Node.scalar tag text).value limit (fuel + 1) =
      Scalar.value limit tag text := by
  rw [value, simple_scalar plain]
  cases Scalar.value limit tag text <;> rfl

theorem value_texts (texts : List (List Char)) (fuel : Nat) :
    (Node.seq .seq (texts.map (.scalar .str))).value limit (fuel + 2) =
      .ok (.seq (texts.map fun text => .str (String.ofList text))) := by
  have items : (texts.map (Node.scalar .str)).mapM (value limit (fuel + 1)) =
      .ok (texts.map fun text => .str (String.ofList text)) := by
    rw [List.mapM_map]
    exact List.mapM_pure
  change Except.map Value.seq ((texts.map (Node.scalar .str)).mapM (value limit (fuel + 1))) = _
  rw [items]
  rfl

theorem value_field (v : FieldValue) {fuel : Nat} (deep : v.node.depth < fuel) :
    v.node.value limit fuel = v.result limit := by
  cases v with
  | plain negative word =>
    obtain ⟨fuel, rfl⟩ := Nat.exists_eq_add_of_lt deep
    exact value_scalar (isCollection_ofPlain _) _ _
  | quoted text =>
    obtain ⟨fuel, rfl⟩ := Nat.exists_eq_add_of_lt deep
    have textual : Tag.str.isCollection = false := rfl
    exact value_scalar textual _ _
  | items first more =>
    have two : ∃ less, fuel = less + 2 := ⟨fuel - 2, by
      simp only [FieldValue.node, depth] at deep
      omega⟩
    obtain ⟨fuel, rfl⟩ := two
    exact value_texts (first :: more) fuel

section

variable {α β γ ε : Type}

theorem mapM_congr {f g : α → Except ε β} {xs : List α} (same : ∀ x ∈ xs, f x = g x) :
    xs.mapM f = xs.mapM g := by
  induction xs with
  | nil => rfl
  | cons x xs ih =>
    obtain ⟨first, others⟩ := List.forall_mem_cons.mp same
    rw [List.mapM_cons, List.mapM_cons, first, ih others]

theorem mapM_map_const (f : α → Except ε β) (g : α → γ) (xs : List α) :
    xs.mapM (fun x => (f x).map fun _ => g x) = (xs.mapM f).map fun _ => xs.map g := by
  induction xs with
  | nil => rfl
  | cons x xs ih =>
    rw [List.mapM_cons, List.mapM_cons, ih]
    cases f x with
    | error why => rfl
    | ok y => cases xs.mapM f <;> rfl

end

theorem settle_texts (fuel : Nat) {level : List Node}
    (texts : ∀ n ∈ level, ∃ texts : List (List Char), n = .seq .seq (texts.map (.scalar .str))) :
    settle limit fuel level = .ok () := by
  induction fuel generalizing level with
  | zero => rfl
  | succ fuel ih =>
    have inners : level.mapM (inner limit) = .ok (level.map fun _ => []) := by
      have each : ∀ n ∈ level, n.inner limit = .ok [] := by
        intro n mem
        obtain ⟨items, rfl⟩ := texts n mem
        have checked : (items.map (Node.scalar .str)).mapM (checkItem limit) =
            .ok (items.map fun _ => []) := by
          rw [List.mapM_map]
          exact List.mapM_pure
        change Except.map List.flatten ((items.map (Node.scalar .str)).mapM (checkItem limit)) = _
        rw [checked]
        simp [Except.map]
      rw [mapM_congr each]
      exact List.mapM_pure
    rw [settle, inners]
    change settle limit fuel (level.map fun _ => ([] : List Node)).flatten = _
    have none : (level.map fun _ => ([] : List Node)).flatten = [] := by simp
    rw [none]
    exact ih (by simp)

theorem depth_le_depthOfEntries {entry : Node × Node} {entries : List (Node × Node)}
    (mem : entry ∈ entries) : entry.2.depth ≤ depthOfEntries entries := by
  induction entries with
  | nil => cases mem
  | cons first entries ih =>
    rw [depthOfEntries]
    rcases List.mem_cons.mp mem with rfl | later
    · omega
    · have below := ih later
      omega

section

variable {fields : List Field} (texts : ∀ f ∈ fields, Tag.ofPlain f.key.chars = .str)

include texts

theorem mappingEntries_fields :
    mappingEntries (fields.map Field.node) = .ok (fields.map Field.node) := by
  have key : ∀ f ∈ fields, f.node = (.scalar .str f.key.chars, f.value.node) := by
    intro f mem
    rw [Field.node, texts f mem]
  have merged : mergedEntries (fields.map Field.node) = .ok [] := by
    clear texts
    induction fields with
    | nil => rfl
    | cons f fields ih =>
      obtain ⟨first, others⟩ := List.forall_mem_cons.mp key
      rw [List.map_cons, first, mergedEntries, ih others]
      rfl
  have own : (fields.map Field.node).filter (fun entry => entry.1.tag ≠ .merge) =
      fields.map Field.node := by
    refine List.filter_eq_self.mpr fun entry mem => ?_
    obtain ⟨f, among, rfl⟩ := List.mem_map.mp mem
    rw [key f among]
    rfl
  have plain : (fields.map Field.node).map (fun entry => (entry.1.plainKey, entry.2)) =
      fields.map Field.node := by
    rw [List.map_map]
    refine List.map_congr_left fun f among => ?_
    rw [Function.comp_apply, key f among]
    rfl
  rw [mappingEntries, merged]
  change Except.ok (((fields.map Field.node).filter _).map _) = _
  rw [own, plain]

theorem inner_fields :
    (Node.map .map (fields.map Field.node)).inner limit =
      (fields.mapM (Field.result limit)).map fun _ => fields.flatMap fun f => f.value.nested := by
  have checked : (fields.map Field.node).mapM (checkEntry limit) =
      (fields.mapM (Field.result limit)).map fun _ => fields.map fun f => f.value.nested := by
    rw [List.mapM_map, ← mapM_map_const]
    refine mapM_congr fun f among => ?_
    have key : (Node.scalar .str f.key.chars).checkKey limit = .ok () := rfl
    rw [Function.comp_apply, checkEntry, Field.node, texts f among, key]
    change f.value.node.checkItem limit = _
    rw [checkItem_field, Field.result]
    cases f.value.result limit <;> rfl
  change (mappingEntries (fields.map Field.node) >>= _) = _
  rw [mappingEntries_fields texts]
  change ((fields.map Field.node).mapM (checkEntry limit)).map List.flatten = _
  rw [checked]
  cases fields.mapM (Field.result limit) with
  | error why => rfl
  | ok entries => exact congrArg Except.ok (List.flatMap_def ..).symm

theorem value_fields {fuel : Nat}
    (deep : (Node.map .map (fields.map Field.node)).depth < fuel) :
    (Node.map .map (fields.map Field.node)).value limit fuel =
      (fields.mapM (Field.result limit)).map .map := by
  have textual : Tag.str.isCollection = false := rfl
  rw [depth] at deep
  obtain ⟨less, rfl⟩ : ∃ less, fuel = less + 1 := ⟨fuel - 1, by omega⟩
  have entries : (fields.map Field.node).mapM (fun e => do
      let key ← value limit less e.1
      let value ← value limit less e.2
      Except.ok (key, value)) = fields.mapM (Field.result limit) := by
    rw [List.mapM_map]
    refine mapM_congr fun f among => ?_
    have below := depth_le_depthOfEntries (List.mem_map_of_mem (f := Field.node) among)
    have key : (Node.scalar .str f.key.chars).value limit less =
        .ok (.str (String.ofList f.key.chars)) := by
      obtain ⟨fuel, rfl⟩ : ∃ fuel, less = fuel + 1 := ⟨less - 1, by omega⟩
      exact value_scalar textual _ _
    have value : f.value.node.value limit less = f.value.result limit := by
      refine value_field f.value ?_
      change f.value.node.depth ≤ _ at below
      omega
    rw [Function.comp_apply, Field.node, texts f among, key]
    change (f.value.node.value limit less >>= _) = _
    rw [value, Field.result]
    cases f.value.result limit <;> rfl
  change (mappingEntries (fields.map Field.node) >>= fun entries => Except.map Value.map
    (entries.mapM _)) = _
  rw [mappingEntries_fields texts]
  exact congrArg (Except.map Value.map) entries

theorem load_fields :
    (Node.map .map (fields.map Field.node)).load limit =
      (fields.mapM (Field.result limit)).map .map := by
  have top : (Node.map .map (fields.map Field.node)).checkItem limit =
      .ok [.map .map (fields.map Field.node)] := rfl
  have settled (fuel : Nat) :
      settle limit (fuel + 1) [.map .map (fields.map Field.node)] =
        (fields.mapM (Field.result limit)).map fun _ => () := by
    have nested : ∀ n ∈ fields.flatMap fun f => f.value.nested,
        ∃ texts : List (List Char), n = .seq .seq (texts.map (.scalar .str)) := by
      intro n mem
      obtain ⟨f, -, inside⟩ := List.mem_flatMap.mp mem
      cases value : f.value with
      | plain negative word => simp [value, FieldValue.nested] at inside
      | quoted text => simp [value, FieldValue.nested] at inside
      | items first more =>
        refine ⟨first :: more, ?_⟩
        simpa [value, FieldValue.nested, FieldValue.node] using inside
    have rest : settle limit fuel _ = .ok () := settle_texts fuel nested
    rw [settle, List.mapM_cons, inner_fields texts]
    cases fields.mapM (Field.result limit) with
    | error why => rfl
    | ok entries =>
      change settle limit fuel ([fields.flatMap fun f => f.value.nested].flatten) = _
      rw [List.flatten_singleton, rest]
      rfl
  rw [load, top]
  change (settle limit _ [.map .map (fields.map Field.node)] >>= _) = _
  rw [settled]
  cases results : fields.mapM (Field.result limit) with
  | error why => rfl
  | ok entries =>
    have given := @value_fields limit _ texts _ (Nat.lt_succ_self _)
    rw [results] at given
    exact given

end

end Node

theorem isTextChar_of_mem_textOf {lines : List Line} {ch : Char} (mem : ch ∈ textOf lines) :
    isTextChar ch = true := by
  obtain ⟨line, -, within⟩ := List.mem_flatMap.mp mem
  rcases List.mem_append.mp within with written | ends
  · have plain := isPlainAscii_of_mem_write written
    simp only [isPlainAscii, Bool.and_eq_true, decide_eq_true_eq] at plain
    have printable : 0x20 ≤ ch.toNat ∧ ch.toNat ≤ 0x7E := by omega
    simp [isTextChar, printable]
  · rw [List.mem_singleton.mp ends]
    rfl

/-- A text of fields loads as the mapping of its fields, or with the first fault among them. -/
theorem load_textOf {limit : Text.Numeral.Limit} {fields : List Field} (filled : fields ≠ [])
    (texts : ∀ f ∈ fields, Tag.ofPlain f.key.chars = .str) :
    load limit (String.ofList (textOf (fields.flatMap Field.lines))) =
      (fields.mapM (Field.result limit)).map .map := by
  obtain ⟨f, others, rfl⟩ := List.exists_cons_of_ne_nil filled
  obtain ⟨value, more, starts⟩ := f.lines_eq_cons
  have readable : (textOf ((f :: others).flatMap Field.lines)).all isTextChar = true :=
    List.all_eq_true.mpr fun ch mem => isTextChar_of_mem_textOf mem
  have tokens : tokens (textOf ((f :: others).flatMap Field.lines)) = .blockMappingStart ::
      ((f :: others).flatMap Field.tokens ++ [.blockEnd, .streamEnd]) := by
    have made := tokens_textOf f.key value (more ++ others.flatMap Field.lines)
    have split : (f :: others).flatMap Field.lines =
        .entry f.key value :: (more ++ others.flatMap Field.lines) := by
      rw [List.flatMap_cons, starts, List.cons_append]
    have flat : ((f :: others).flatMap Field.lines).flatMap Line.tokens =
        (f :: others).flatMap Field.tokens := by
      rw [List.flatMap_assoc]
      exact congrArg (List.flatMap · (f :: others)) (funext Field.tokens_lines)
    rw [split, made, ← split, flat]
  rw [load, String.toList_ofList, loadChars, readable, tokens, document_fields]
  exact Node.load_fields texts

end ModuleStubs.Yaml
