import Mathlib.Data.List.TakeWhile
import ModuleStubs.Proofs.Path.RoundTrip
import ModuleStubs.Proofs.Settings.Faults

/-! Settings that can be worked with. A blank text counts as not given, so that the default holds;
but the leading dots of an extension are taken off after that, and nothing may be left. -/

namespace ModuleStubs

namespace Settings

/-- What holds of settings in any case: no setting that a run needs is blank, but perhaps the
extension, and that does not begin with a dot. -/
structure Filled (s : Settings) : Prop where
  executable : s.tool.executable ≠ ""
  target : s.tool.target ≠ ""
  sdk : s.tool.sdk ≠ ""
  directory : s.directory ≠ ""
  dotless : s.extension.toList.head? ≠ some '.'
  includes : s.includes ≠ []

structure Usable (s : Settings) : Prop extends Filled s where
  extension : s.extension ≠ ""

def DotsOnly (given : String) : Prop := given ≠ "" ∧ ∀ c ∈ given.toList, c = '.'

theorem withoutLeadingDots_eq_empty_iff {given : String} :
    withoutLeadingDots given = "" ↔ ∀ c ∈ given.toList, c = '.' := by
  rw [withoutLeadingDots, ← String.toList_eq_nil_iff, String.toList_ofList,
    List.dropWhile_eq_nil_iff]
  simp

theorem head?_withoutLeadingDots (given : String) :
    (withoutLeadingDots given).toList.head? ≠ some '.' := by
  rw [withoutLeadingDots, String.toList_ofList]
  intro first
  have other := List.head?_dropWhile_not (fun c => decide (c = '.')) given.toList
  rw [first] at other
  simp at other

theorem usable_default (root : Path) : Usable { root := root } where
  executable := (by decide : ({} : ToolSettings).executable ≠ "")
  target := (by decide : ({} : ToolSettings).target ≠ "")
  sdk := (by decide : ({} : ToolSettings).sdk ≠ "")
  directory := (by decide : "mocks" ≠ "")
  extension := (by decide : "ts" ≠ "")
  dotless := (by decide : "ts".toList.head? ≠ some '.')
  includes := List.cons_ne_nil _ _

section

variable {key : String} {es : Entries} {root : Path} {s : Settings}

theorem text?_eq_some_iff {given : String} : text? key es = .ok (some given) ↔
    Coercion.text (value key es) = .ok (some given) ∧ given ≠ "" := by
  rw [text?]
  cases Coercion.text (value key es) with
  | error why => simp [Except.mapError, bind, Except.bind]
  | ok found => simp [Except.mapError, bind, Except.bind, Option.filter_eq_some_iff]

theorem getD_ne_empty {found : Option String} (given : text? key es = .ok found)
    {fallback : String} (filled : fallback ≠ "") : found.getD fallback ≠ "" := by
  cases found with
  | none => exact filled
  | some t => exact (text?_eq_some_iff.mp given).2

theorem readTool_filled {tool : ToolSettings} (read : readTool es = .ok tool) :
    tool.executable ≠ "" ∧ tool.target ≠ "" ∧ tool.sdk ≠ "" := by
  obtain ⟨executable, e, read⟩ := of_bind_eq_ok read
  obtain ⟨target, t, read⟩ := of_bind_eq_ok read
  obtain ⟨sdk, k, read⟩ := of_bind_eq_ok read
  obtain ⟨args, -, read⟩ := of_bind_eq_ok read
  obtain ⟨timeout, -, read⟩ := of_bind_eq_ok read
  cases read
  exact ⟨getD_ne_empty e (by decide), getD_ne_empty t (by decide), getD_ne_empty k (by decide)⟩

/-- The extension is blank exactly if one is given that is dots only. -/
theorem extension_eq_empty_iff {extension : Option String} {fallback : String}
    (given : text? key es = .ok extension) (filled : fallback ≠ "") :
    (extension.map withoutLeadingDots).getD fallback = "" ↔
      ∃ given, DotsOnly given ∧ Coercion.text (value key es) = .ok (some given) := by
  cases extension with
  | none =>
    refine iff_of_false filled ?_
    rintro ⟨other, dots, same⟩
    cases given.symm.trans (text?_eq_some_iff.mpr ⟨same, dots.1⟩)
  | some t =>
    obtain ⟨held, nonempty⟩ := text?_eq_some_iff.mp given
    rw [Option.map_some, Option.getD_some, withoutLeadingDots_eq_empty_iff]
    constructor
    · exact fun dots => ⟨t, ⟨nonempty, dots⟩, held⟩
    · rintro ⟨other, dots, same⟩
      cases held.symm.trans same
      exact dots.2

theorem read_filled (read : Settings.read root es = .ok s) : Filled s ∧
    (s.extension = "" ↔ ∃ given, DotsOnly given ∧
      Coercion.text (value "extension" (entriesUnder "output" es)) = .ok (some given)) := by
  obtain ⟨tool, t, read⟩ := of_bind_eq_ok read
  obtain ⟨directory, d, read⟩ := of_bind_eq_ok read
  obtain ⟨extension, e, read⟩ := of_bind_eq_ok read
  obtain ⟨templates, -, read⟩ := of_bind_eq_ok read
  obtain ⟨includes, i, read⟩ := of_bind_eq_ok read
  obtain ⟨excludes, -, read⟩ := of_bind_eq_ok read
  cases read
  obtain ⟨executable, target, sdk⟩ := readTool_filled t
  have plain := usable_default root
  refine ⟨⟨executable, target, sdk, getD_ne_empty d plain.directory, ?_, ?_⟩, ?_⟩
  · cases extension with
    | none => exact plain.dotless
    | some given => exact head?_withoutLeadingDots given
  · cases includes with
    | nil => exact plain.includes
    | cons pattern rest => exact List.cons_ne_nil _ _
  · exact extension_eq_empty_iff e plain.extension

end

def GivesDots (host : Host) (d : Disk) (p : Path) : Prop :=
  ∃ whole file text es given, expandHome host p = .ok whole ∧ filePath d whole = .ok file ∧
    d.exists? file = .ok true ∧ d.readText file = .ok text ∧ parse host text = .ok es ∧
    DotsOnly given ∧
    Coercion.text (value "extension" (entriesUnder "output" es)) = .ok (some given)

theorem load_filled {host : Host} {d : Disk} {p : Path} {s : Settings}
    (loaded : load host d p = .ok s) : Filled s ∧ (s.extension = "" ↔ GivesDots host d p) := by
  obtain ⟨whole, expanded, loaded⟩ := of_bind_eq_ok loaded
  obtain ⟨file, found, loaded⟩ := of_bind_eq_ok loaded
  obtain ⟨there, looked, loaded⟩ := of_bind_eq_ok loaded
  rw [mapError_eq_ok_iff] at found looked
  cases there with
  | false =>
    cases loaded
    have plain := usable_default file.parent
    refine ⟨plain.toFilled, iff_of_false plain.extension ?_⟩
    rintro ⟨_, other, -, -, -, expanded', found', there, -⟩
    cases expanded.symm.trans expanded'
    cases found.symm.trans found'
    cases looked.symm.trans there
  | true =>
    obtain ⟨text, given, loaded⟩ := of_bind_eq_ok loaded
    obtain ⟨es, parsed, loaded⟩ := of_bind_eq_ok loaded
    rw [mapError_eq_ok_iff] at given
    obtain ⟨filled, blank⟩ := read_filled loaded
    refine ⟨filled, blank.trans ⟨?_, ?_⟩⟩
    · rintro ⟨dots, only, held⟩
      exact ⟨whole, file, text, es, dots, expanded, found, looked, given, parsed, only, held⟩
    · rintro ⟨_, _, _, _, dots, expanded', found', -, given', parsed', only, held⟩
      cases expanded.symm.trans expanded'
      cases found.symm.trans found'
      cases given.symm.trans given'
      cases parsed.symm.trans parsed'
      exact ⟨dots, only, held⟩

/-- With usable settings the file of a module lies in the output directory and is called by the
name of the module, a dot and the extension. -/
theorem Usable.path_eq {s : Settings} (usable : s.Usable) (host : Host) (directory : Option Path)
    (m : Definition) (plain : '/' ∉ (m.name ++ "." ++ s.extension).toList) :
    ((⟨host, s⟩ : Project).output directory).path m =
      (directory.getD s.outputDirectory).child (m.name ++ "." ++ s.extension) := by
  have filled : 0 < s.extension.toList.length :=
    List.length_pos_iff.mpr fun none => usable.extension (String.toList_eq_nil_iff.mp none)
  have long : 1 < (m.name ++ "." ++ s.extension).toList.length := by
    simp only [String.toList_append, List.length_append]
    have dot : ".".toList.length = 1 := by decide
    omega
  have heard : Path.isSilent (m.name ++ "." ++ s.extension) = false := by
    rw [Path.isSilent, Bool.or_eq_false_iff, decide_eq_false_iff_not, decide_eq_false_iff_not]
    constructor
    · intro same
      rw [same] at long
      exact absurd long (by decide)
    · intro same
      rw [same] at long
      exact absurd long (by decide)
  change Path.append (directory.getD s.outputDirectory)
    (Path.ofString (m.name ++ "." ++ s.extension)) = _
  rw [Path.ofString_of_plain plain heard]
  rfl

/-- Settings that have been loaded are usable, unless the settings file gives an extension of dots
only: then the extension is blank, though nothing else is. Under usable settings every module whose
file can be named in one component has its file in the output directory, called by the name of the
module, a dot and the extension. -/
theorem usable_iff_not_givesDots (host : Host) (d : Disk) (p : Path) (s : Settings)
    (loaded : load host d p = .ok s) : Filled s ∧ (Usable s ↔ ¬ GivesDots host d p) ∧
      (Usable s → ∀ (other : Host) (directory : Option Path) (m : Definition),
        '/' ∉ (m.name ++ "." ++ s.extension).toList →
          ((⟨other, s⟩ : Project).output directory).path m =
            (directory.getD s.outputDirectory).child (m.name ++ "." ++ s.extension)) := by
  obtain ⟨filled, blank⟩ := load_filled loaded
  refine ⟨filled, ⟨?_, ?_⟩, fun usable => usable.path_eq⟩
  · exact fun usable dots => usable.extension (blank.mpr dots)
  · exact fun none => ⟨filled, fun empty => none (blank.mp empty)⟩

def oddDisk : Disk :=
  settingsDisk ("analysis:\n  target: ''\n" ++
    "output:\n  directory: ''\n  extension: ..d.ts\ninclude: []\n")

def dotsDisk : Disk := settingsDisk "output:\n  extension: '.'\n"

theorem exists_loaded {α : Type} {x : Except SettingsFault Settings} {f : Settings → α} {a : α}
    (shown : x.toOption.map f = some a) : ∃ s, x = .ok s ∧ f s = a := by
  obtain ⟨s, given, same⟩ := Option.map_eq_some_iff.mp shown
  exact ⟨s, eq_ok_of_toOption given, same⟩

theorem odd_settings_usable : ∃ s, load toolless oddDisk here = .ok s ∧ Usable s ∧
    s.extension = "d.ts" ∧ s.directory = "mocks" ∧
    ∀ (host : Host) (m : Definition), m.name = "M" →
      ((⟨host, s⟩ : Project).output none).path m = s.outputDirectory.child "M.d.ts" := by
  obtain ⟨s, loaded, shown⟩ := exists_loaded (f := fun s => (s.extension, s.directory))
    (show (load toolless oddDisk here).toOption.map (fun s => (s.extension, s.directory)) =
      some ("d.ts", "mocks") by decide +kernel)
  obtain ⟨extension, directory⟩ := Prod.mk.inj shown
  obtain ⟨filled, -, named⟩ := usable_iff_not_givesDots toolless oddDisk here s loaded
  have usable : Usable s := ⟨filled, by rw [extension]; decide⟩
  refine ⟨s, loaded, usable, extension, directory, fun host m name => ?_⟩
  have path := named usable host none m (by rw [name, extension]; decide)
  rw [name, extension] at path
  exact path

/-- A single dot for an extension leaves nothing of it, so that files end in a dot. -/
theorem dot_extension_blank :
    ∃ s, load toolless dotsDisk here = .ok s ∧ s.extension = "" ∧ ¬ Usable s ∧
    ((⟨toolless, s⟩ : Project).output none).path { name := "M" } =
      ⟨.root, ["mocks", "M."]⟩ := by
  obtain ⟨s, loaded, shown⟩ := exists_loaded
    (f := fun s => (s.extension,
      ((⟨toolless, s⟩ : Project).output none).path { name := "M" }))
    (a := ("", ⟨.root, ["mocks", "M."]⟩)) (x := load toolless dotsDisk here) (by decide +kernel)
  obtain ⟨blank, path⟩ := Prod.mk.inj shown
  exact ⟨s, loaded, blank, fun usable => usable.extension blank, path⟩

end Settings

end ModuleStubs
