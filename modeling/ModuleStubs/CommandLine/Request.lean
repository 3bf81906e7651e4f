import ModuleStubs.CommandLine.Flag
import ModuleStubs.CommandLine.Help
import ModuleStubs.Path

/-! What a command line asks for. Everything from the command on belongs to the
command; what nobody takes is reported after all else has been read. -/

namespace ModuleStubs.CommandLine

inductive Command where
  | definitions
  | mocks (outputDir : Option Path) (dryRun : Bool)

structure Request where
  verbose : Bool
  logFile : Option Path
  path : Path
  command : Command

inductive Halt where
  | help (scope : Scope)
  | misuse (scope : Scope) (why : Misuse)

structure Taken where
  verbose : Bool := false
  logFile : Option String := none
  outputDir : Option String := none
  dryRun : Bool := false
  path : Option String := none
  extras : List String := []

def Scope.flags : Scope → List Flag
  | .main => [.help, .verbose, .logFile]
  | .definitions => [.help, .verbose]
  | .mocks => [.help, .verbose, .outputDir, .dryRun]

def take (scope : Scope) (t : Taken) (u : Use) : Except Halt Taken :=
  match u.flag, u.value with
  | .help, _ => .error (.help scope)
  | .verbose, _ => .ok { t with verbose := true }
  | .dryRun, _ => .ok { t with dryRun := true }
  | .logFile, some given => .ok { t with logFile := some given.value }
  | .outputDir, some given => .ok { t with outputDir := some given.value }
  | flag, none => .error (.misuse scope (.noValue flag))

def takeAll (scope : Scope) (t : Taken) (us : List Use) : Except Halt Taken :=
  us.foldlM (take scope) t

/-- A flag that takes a value takes the next word, if that is plain. -/
def supply : List Use → List Word → List Use × List Word
  | [⟨flag, name, none⟩], .plain text :: rest =>
    if flag.takesValue then ([⟨flag, name, some (.equals text)⟩], rest)
    else ([⟨flag, name, none⟩], .plain text :: rest)
  | us, rest => (us, rest)

def takeUse (scope : Scope) (t : Taken) (u : Use) (rest : List Word) :
    Except Halt (Taken × List Word) := do
  let s ← (spread scope.flags u).mapError (.misuse scope)
  let (uses, rest) := supply s.uses rest
  let t ← takeAll scope { t with extras := t.extras ++ s.unknown.toList } uses
  .ok (t, rest)

/-- The path of a command and its flags; a divider before or after the path is dropped. -/
def readCommand (fuel : Nat) (scope : Scope) (t : Taken) (ws : List Word) : Except Halt Taken :=
  match fuel, ws with
  | fuel + 1, .use u :: rest => do
    let (t, rest) ← takeUse scope t u rest
    readCommand fuel scope t rest
  | fuel + 1, .unknown text :: rest =>
    readCommand fuel scope { t with extras := t.extras ++ [text] } rest
  | fuel + 1, .divider :: .plain text :: rest =>
    if t.path.isNone then readCommand fuel scope { t with path := some text } rest
    else readCommand fuel scope { t with extras := t.extras ++ ["--", text] } rest
  | fuel + 1, .plain text :: rest =>
    if t.path.isNone then
      match rest with
      | .divider :: rest => readCommand fuel scope { t with path := some text } rest
      | rest => readCommand fuel scope { t with path := some text } rest
    else readCommand fuel scope { t with extras := t.extras ++ [text] } rest
  | fuel + 1, .divider :: rest =>
    let extras := if t.path.isNone then [] else ["--"]
    readCommand fuel scope { t with extras := t.extras ++ extras } rest
  | _, _ => .ok t

def scopeOf? : String → Option Scope
  | "structure" => some .definitions
  | "mocks" => some .mocks
  | _ => none

def readMain (fuel : Nat) (t : Taken) (ws : List Word) (texts : List String) :
    Except Halt (Taken × Scope × Taken) :=
  match fuel, ws with
  | fuel + 1, .use u :: rest => do
    let (t, rest) ← takeUse .main t u rest
    readMain fuel t rest (texts.drop (texts.length - rest.length))
  | fuel + 1, .unknown text :: rest =>
    readMain fuel { t with extras := t.extras ++ [text] } rest (texts.drop 1)
  | _, .divider :: _ :: _ => .error (.misuse .main (.unknownCommand "--"))
  | _, .plain text :: _ =>
    match scopeOf? text with
    | none => .error (.misuse .main (.unknownCommand text))
    | some scope => do
      let rest := texts.drop 1
      let ws ← (words scope.flags rest).mapError (.misuse scope)
      let inner ← readCommand (ws.length + 1) scope {} ws
      .ok (t, scope, inner)
  | _, _ => .error (.misuse .main .noCommand)

def commandOf (scope : Scope) (t : Taken) : Command :=
  if scope = .mocks then .mocks (t.outputDir.map Path.ofString) t.dryRun else .definitions

def read (texts : List String) : Except Halt Request := do
  let ws ← (words Scope.main.flags texts).mapError (.misuse .main)
  let (outer, scope, inner) ← readMain (ws.length + 1) {} ws texts
  let extras := outer.extras ++ inner.extras
  if extras.isEmpty then
    .ok {
      verbose := outer.verbose || inner.verbose
      logFile := outer.logFile.map Path.ofString
      path := Path.ofString (inner.path.getD ".")
      command := commandOf scope inner }
  else .error (.misuse .main (.unrecognized extras))

end ModuleStubs.CommandLine
