import ModuleStubs.Proofs.CommandLine.Completion

/-! Which settings files can be loaded, or be refused for what they are as a whole. Every
other fault comes from one value, or from a file that cannot be read, and nothing handles it. -/

namespace ModuleStubs

namespace Coercion

open Yaml (Value)

def HasText (v : Value) : Prop :=
  ∀ n, v = .int n → (Text.digits n.natAbs).length ≤ Text.Numeral.maxDigits

def ItemsHaveTexts (v : Value) : Prop := ∀ items, v = .seq items → ∀ item ∈ items, HasText item

def HasFloat (v : Value) : Prop := ∀ n, v = .int n → (Decimal.ofInt? n).isSome

theorem exists_write_iff (n : Int) : (∃ s, Text.Numeral.write .usual n = .ok s) ↔
    (Text.digits n.natAbs).length ≤ Text.Numeral.maxDigits := by
  rw [Text.Numeral.write, Text.Numeral.Limit.usual, Text.Numeral.Limit.exceeded?_some]
  split_ifs with long
  · simp [Nat.not_le.mpr long]
  · simp [Nat.not_lt.mp long]

theorem scalarText?_ok_iff (v : Value) :
    (∀ written, scalarText? v = some written → ∃ s, written = .ok s) ↔ HasText v := by
  cases v with
  | int n => simp [scalarText?, HasText, exists_write_iff]
  | bool b => cases b <;> simp [scalarText?, HasText]
  | _ => simp [scalarText?, HasText]

theorem exists_text_iff (v : Value) : (∃ t, text v = .ok t) ↔ HasText v := by
  rw [← scalarText?_ok_iff, text]
  cases scalarText? v with
  | none => simp
  | some written =>
    cases written with
    | error why => simp [Except.map, Except.mapError]
    | ok s => simp [Except.map, Except.mapError]

theorem exists_scalarTexts_iff (items : List Value) :
    (∃ ts, scalarTexts items = .ok ts) ↔ ∀ item ∈ items, HasText item := by
  simp only [scalarTexts, mapError_eq_ok_iff, exists_mapM_eq_ok_iff, id, List.mem_filterMap,
    ← scalarText?_ok_iff]
  exact ⟨fun all item mem written same => all written ⟨item, mem, same⟩,
    fun all written ⟨item, mem, same⟩ => all item mem written same⟩

theorem exists_texts_iff (v : Value) : (∃ ts, texts v = .ok ts) ↔ ItemsHaveTexts v := by
  cases v with
  | seq items => simp [texts, ItemsHaveTexts, exists_scalarTexts_iff]
  | _ => simp [texts, ItemsHaveTexts]

theorem exists_number_iff (v : Value) : (∃ x, number v = .ok x) ↔ HasFloat v := by
  cases v with
  | int n => cases given : Decimal.ofInt? n <;> simp [number, HasFloat, given]
  | _ => simp [number, HasFloat]

end Coercion

namespace Settings

open Yaml (Value)

def OfFile {α : Type} (x : Except SettingsFault α) : Prop :=
  ∀ why, x = .error why → why.isOfFile = true

def OfValue {α : Type} (x : Except SettingsFault α) : Prop :=
  ∀ why, x = .error why → why.isOfFile = false

section

variable {α β ε : Type}

theorem OfValue.ok (a : α) : OfValue (.ok a) := nofun

theorem OfValue.mapError {x : Except ε α} {f : ε → SettingsFault}
    (off : ∀ why, (f why).isOfFile = false) : OfValue (x.mapError f) := by
  have any : FailsOnly (fun _ => True) x := fun _ _ => trivial
  exact any.mapError fun why _ => off why

theorem OfValue.bind {x : Except SettingsFault α} {f : α → Except SettingsFault β}
    (first : OfValue x) (rest : ∀ a, OfValue (f a)) : OfValue (x >>= f) :=
  FailsOnly.bind first fun a _ => rest a

theorem ofFile_bind_iff {x : Except SettingsFault α} {f : α → Except SettingsFault β}
    (first : OfValue x) : OfFile (x >>= f) ↔ ∃ a, x = .ok a ∧ OfFile (f a) := by
  cases x with
  | ok a =>
    change OfFile (f a) ↔ _
    simp
  | error why =>
    have off := first why rfl
    simp [OfFile, bind, Except.bind, off]

theorem ofFile_mapError_bind_iff {x : Except ε α} {f : ε → SettingsFault}
    {k : α → Except SettingsFault β} (off : ∀ why, (f why).isOfFile = false) :
    OfFile (x.mapError f >>= k) ↔ ∃ a, x = .ok a ∧ OfFile (k a) := by
  rw [ofFile_bind_iff (.mapError off)]
  simp only [mapError_eq_ok_iff]

theorem ofFile_iff_of_ofValue {x : Except SettingsFault α} (h : OfValue x) :
    OfFile x ↔ ∃ a, x = .ok a := by
  cases x with
  | ok a => simp [OfFile]
  | error why =>
    have off := h why rfl
    simp [OfFile, off]

end

/-- The values of entries that are read have a text, or a float, where one is asked for. -/
structure Fit (es : Entries) : Prop where
  tool : ∀ key ∈ ["executable", "target", "sdk"],
    Coercion.HasText (value key (entriesUnder "analysis" es))
  compilerArgs : Coercion.ItemsHaveTexts (value "compiler_args" (entriesUnder "analysis" es))
  timeout : Coercion.HasFloat (value "timeout" (entriesUnder "analysis" es))
  output : ∀ key ∈ ["directory", "extension", "templates_dir"],
    Coercion.HasText (value key (entriesUnder "output" es))
  patterns : ∀ key ∈ ["include", "exclude_paths"], Coercion.ItemsHaveTexts (value key es)

section

variable (key : String) (es : Entries) (root : Path)

theorem ofValue_text? : OfValue (text? key es) :=
  .bind (.mapError fun _ => rfl) fun _ => .ok _

theorem ofValue_texts : OfValue (texts key es) := .mapError fun _ => rfl

theorem ofValue_read : OfValue (read root es) := by
  have tool : OfValue (readTool (entriesUnder "analysis" es)) :=
    .bind (ofValue_text? _ _) fun _ => .bind (ofValue_text? _ _) fun _ =>
      .bind (ofValue_text? _ _) fun _ => .bind (ofValue_texts _ _) fun _ =>
        .bind (.mapError fun _ => rfl) fun _ => .ok _
  exact .bind tool fun _ => .bind (ofValue_text? _ _) fun _ => .bind (ofValue_text? _ _) fun _ =>
    .bind (ofValue_text? _ _) fun _ => .bind (ofValue_texts _ _) fun _ =>
      .bind (ofValue_texts _ _) fun _ => .ok _

theorem exists_text?_iff :
    (∃ t, text? key es = .ok t) ↔ Coercion.HasText (value key es) := by
  have read : (∃ t, text? key es = .ok t) ↔
      (∃ t, (Coercion.text (value key es)).mapError SettingsFault.coercion = .ok t) ∧ True :=
    exists_bind_eq_ok_iff fun _ => exists_ok_iff _
  simp only [read, and_true, mapError_eq_ok_iff, Coercion.exists_text_iff]

theorem exists_texts_iff :
    (∃ ts, texts key es = .ok ts) ↔ Coercion.ItemsHaveTexts (value key es) := by
  simp only [texts, mapError_eq_ok_iff, Coercion.exists_texts_iff]

-- No step of the reading depends on what a step before has given, so the whole succeeds if
-- each does.
theorem exists_readTool_iff : (∃ s, readTool es = .ok s) ↔
    (∀ key ∈ ["executable", "target", "sdk"], Coercion.HasText (value key es)) ∧
      Coercion.ItemsHaveTexts (value "compiler_args" es) ∧
        Coercion.HasFloat (value "timeout" es) := by
  have steps : (∃ s, readTool es = .ok s) ↔ _ :=
    exists_bind_eq_ok_iff fun _ => exists_bind_eq_ok_iff fun _ => exists_bind_eq_ok_iff fun _ =>
      exists_bind_eq_ok_iff fun _ => exists_bind_eq_ok_iff fun _ => exists_ok_iff _
  rw [steps]
  simp [exists_text?_iff, exists_texts_iff, mapError_eq_ok_iff, Coercion.exists_number_iff,
    and_assoc]

theorem exists_read_iff : (∃ s, read root es = .ok s) ↔ Fit es := by
  have steps : (∃ s, read root es = .ok s) ↔ _ :=
    exists_bind_eq_ok_iff fun _ => exists_bind_eq_ok_iff fun _ => exists_bind_eq_ok_iff fun _ =>
      exists_bind_eq_ok_iff fun _ => exists_bind_eq_ok_iff fun _ => exists_bind_eq_ok_iff fun _ =>
        exists_ok_iff _
  rw [steps, exists_readTool_iff]
  simp only [exists_text?_iff, exists_texts_iff]
  constructor
  · rintro ⟨⟨tool, args, timeout⟩, directory, extension, templates, includes, excludes, -⟩
    exact ⟨tool, args, timeout, by simp [directory, extension, templates],
      by simp [includes, excludes]⟩
  · intro fit
    exact ⟨⟨fit.tool, fit.compilerArgs, fit.timeout⟩, fit.output _ (by simp),
      fit.output _ (by simp), fit.output _ (by simp), fit.patterns _ (by simp),
      fit.patterns _ (by simp), trivial⟩

end

def LegibleText (text : String) : Prop :=
  Text.isBlankText text = true ∨
    match Yaml.load .usual text with
    | .ok (.map es) => Fit es
    | .ok _ => True
    | .error why => why = .malformed

/-- A path whose settings file is not there, or has a legible text. A leading tilde has to stand for
a home directory. -/
inductive Legible (host : Host) (d : Disk) (p : Path) : Prop
  | absent {whole file : Path} (expanded : expandHome host p = .ok whole)
    (found : filePath d whole = .ok file) (absent : d.exists? file = .ok false)
  | present {whole file : Path} {text : String} (expanded : expandHome host p = .ok whole)
    (found : filePath d whole = .ok file)
    (present : d.exists? file = .ok true) (read : d.readText file = .ok text)
    (legible : LegibleText text)

theorem fit_nil : Fit [] := by
  have text : ∀ key, Coercion.HasText (value key []) := fun _ _ same => nomatch same
  have texts : ∀ key, Coercion.ItemsHaveTexts (value key []) := fun _ _ same => nomatch same
  have float : Coercion.HasFloat (value "timeout" []) := fun _ same => nomatch same
  exact ⟨fun key _ => text key, texts _, float, fun key _ => text key, fun key _ => texts key⟩

theorem ofFile_read_iff (root : Path) (es : Entries) : OfFile (read root es) ↔ Fit es := by
  rw [ofFile_iff_of_ofValue (ofValue_read es root), exists_read_iff]

theorem ofFile_parse_iff (host : Host) (text : String) (root : Path) :
    OfFile (parse host text >>= read root) ↔ LegibleText text := by
  have plain : OfFile (.ok [] >>= read root) :=
    (ofFile_read_iff root []).mpr fit_nil
  have off : ∀ why : SettingsFault, OfFile (.error why >>= read root) ↔ why.isOfFile = true :=
    fun why => ⟨fun ofFile => ofFile why rfl, fun h _ same => by cases same; exact h⟩
  by_cases empty : Text.isBlankText text = true
  · simp [parse, LegibleText, empty, plain]
  · rw [parse, if_neg empty, LegibleText, or_iff_right empty]
    cases Yaml.load .usual text with
    | ok v =>
      cases v with
      | map es => exact ofFile_read_iff root es
      | null => exact iff_true_intro plain
      | _ => exact iff_true_intro ((off .noMapping).mpr rfl)
    | error why =>
      cases why with
      | malformed => exact iff_of_true ((off (.yaml .malformed _)).mpr rfl) rfl
      | _ => exact iff_of_false (fun ofFile => nomatch (off _).mp ofFile) nofun

theorem ofValue_expandHome (host : Host) (p : Path) : OfValue (expandHome host p) := by
  intro why failed
  unfold expandHome at failed
  split at failed
  · split_ifs at failed
    split at failed <;> cases failed
    rfl
  · cases failed

theorem ofFile_load_iff (host : Host) (d : Disk) (p : Path) :
    OfFile (load host d p) ↔ Legible host d p := by
  have steps : load host d p = expandHome host p >>= fun whole =>
      (filePath d whole).mapError (fun why => .text (.disk why)) >>= fun file =>
        (d.exists? file).mapError (fun why => .text (.disk why)) >>= fun there =>
          if there then
            (d.readText file).mapError .text >>= fun text => parse host text >>= read file.parent
          else .ok { root := file.parent } := rfl
  have disk : ∀ why, (SettingsFault.text (.disk why)).isOfFile = false := fun _ => rfl
  have text : ∀ why, (SettingsFault.text why).isOfFile = false := fun _ => rfl
  rw [steps]
  simp only [ofFile_bind_iff (ofValue_expandHome host p), ofFile_mapError_bind_iff disk]
  constructor
  · rintro ⟨whole, expanded, file, found, there, seen, rest⟩
    cases there with
    | false => exact .absent expanded found seen
    | true =>
      rw [if_pos rfl, ofFile_mapError_bind_iff text] at rest
      obtain ⟨text, given, legible⟩ := rest
      exact .present expanded found seen given ((ofFile_parse_iff host _ _).mp legible)
  · intro legible
    cases legible with
    | absent expanded found absent => exact ⟨_, expanded, _, found, false, absent, nofun⟩
    | present expanded found present given legible =>
      refine ⟨_, expanded, _, found, true, present, ?_⟩
      rw [if_pos rfl, ofFile_mapError_bind_iff text]
      exact ⟨_, given, (ofFile_parse_iff host _ _).mpr legible⟩

end Settings

namespace CommandLine

variable (r : Request) (host : Host) (w : World)

theorem start_ends_iff : (∃ status, (start r host w).result = .ok status) ↔
    Settings.OfFile (Settings.load host w.disk r.path) := by
  cases loaded : Settings.load host w.disk r.path with
  | ok settings =>
    rw [start, loaded]
    exact iff_of_true (perform_ends r w _) (by intro why failed; cases failed)
  | error why =>
    rw [start_of_fault r host w loaded]
    cases own : why.isOfFile <;> simp [Settings.OfFile, own]

end CommandLine

namespace Settings

def faultOf? : Except SettingsFault Settings → Option SettingsFault
  | .error why => some why
  | .ok _ => none

theorem exists_fault_of_any {x : Except SettingsFault Settings} {p : SettingsFault → Bool}
    (some : (faultOf? x).any p = true) : ∃ why, x = .error why ∧ p why = true := by
  cases x with
  | error why => exact ⟨why, rfl, some⟩
  | ok s => cases some

def settingsDisk (text : String) : Disk :=
  { entries := [([settingsFileName], .file (Text.Utf8.encode text.toList))], here := [] }

def toolless : Host := { tool := fun _ _ => .missing }

def here : Path := ⟨.relative, []⟩

def plainRequest : CommandLine.Request := ⟨false, none, here, .definitions⟩

theorem read_plainRequest : CommandLine.read ["structure"] = .ok plainRequest := rfl

def undatedDisk : Disk := settingsDisk "analysis:\n  timeout: 2024-02-30\n"

end Settings

end ModuleStubs
