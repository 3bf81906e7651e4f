import ModuleStubs.Host
import ModuleStubs.Settings.Basic
import ModuleStubs.Yaml.Load

/-! Loading settings. They lie in a file of a fixed name in the directory that a path
names, or beside the file that it names; without the file all defaults hold. -/

namespace ModuleStubs

namespace Settings

open Yaml (Value)

abbrev Entries := List (Value × Value)

def value (key : String) (es : Entries) : Value := (Value.lookup key es).getD .null

def text? (key : String) (es : Entries) : Except SettingsFault (Option String) := do
  let found ← (Coercion.text (value key es)).mapError .coercion
  .ok (found.filter (· ≠ ""))

def texts (key : String) (es : Entries) : Except SettingsFault (List String) :=
  (Coercion.texts (value key es)).mapError .coercion

/-- The entries under a key. A mapping that holds itself there has its own. -/
def entriesUnder (key : String) (es : Entries) : Entries :=
  match value key es with
  | .enclosing => es
  | v => Coercion.entries v

def readTool (es : Entries) : Except SettingsFault ToolSettings := do
  let given : ToolSettings := {}
  let executable ← text? "executable" es
  let target ← text? "target" es
  let sdk ← text? "sdk" es
  let compilerArgs ← texts "compiler_args" es
  let timeout ← (Coercion.number (value "timeout" es)).mapError .coercion
  .ok {
    executable := executable.getD given.executable
    target := target.getD given.target
    sdk := sdk.getD given.sdk
    compilerArgs := compilerArgs
    timeout := timeout
    cacheLookups := (Coercion.truth (value "cache_lookups" es)).getD false }

def withoutLeadingDots (s : String) : String := String.ofList (s.toList.dropWhile (· = '.'))

def read (root : Path) (es : Entries) : Except SettingsFault Settings := do
  let given : Settings := { root := root }
  let tool ← readTool (entriesUnder "analysis" es)
  let output := entriesUnder "output" es
  let directory ← text? "directory" output
  let extension ← text? "extension" output
  let templates ← text? "templates_dir" output
  let includes ← texts "include" es
  let excludes ← texts "exclude_paths" es
  .ok {
    root := root
    tool := tool
    directory := directory.getD given.directory
    extension := (extension.map withoutLeadingDots).getD given.extension
    templates := templates.map fun t => root ++ Path.ofString t
    includes := if includes.isEmpty then given.includes else includes
    excludes := excludes }

def parse (host : Host) (text : String) : Except SettingsFault Entries :=
  if Text.isBlankText text then .ok []
  else
    match Yaml.load .usual text with
    | .ok (.map es) => .ok es
    | .ok .null => .ok []
    | .ok _ => .error .noMapping
    | .error why => .error (.yaml why (host.remarks.yaml text))

def expandHome (host : Host) (p : Path) : Except SettingsFault Path :=
  match p.anchor, p.parts with
  | .relative, part :: parts =>
    if part.toList.head? = some '~' then
      match host.home part with
      | some home => .ok (Path.ofString home ++ ⟨.relative, parts⟩)
      | none => .error .noHome
    else .ok p
  | _, _ => .ok p

def filePath (d : Disk) (p : Path) : Except DiskFault Path := do
  if ← d.isDirectory p then d.resolve (p.child settingsFileName)
  else if p.name = settingsFileName then d.resolve p
  else d.resolve (p.parent.child settingsFileName)

def load (host : Host) (d : Disk) (p : Path) : Except SettingsFault Settings := do
  let disk {α : Type} (access : Except DiskFault α) : Except SettingsFault α :=
    access.mapError fun why => .text (.disk why)
  let file ← disk (filePath d (← expandHome host p))
  if ← disk (d.exists? file) then
    let text ← (d.readText file).mapError .text
    read file.parent (← parse host text)
  else .ok { root := file.parent }

end Settings

end ModuleStubs
