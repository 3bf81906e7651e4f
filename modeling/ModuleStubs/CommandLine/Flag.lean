import ModuleStubs.Text.Cut
import ModuleStubs.Text.Digit
import ModuleStubs.Text.Quoted
import ModuleStubs.Text.Split

/-! Flags of a command line. A long flag may be cut short as long as one flag fits; a
value may follow an equals sign; short flags without values may be written together. -/

namespace ModuleStubs.CommandLine

open Text

inductive Flag where
  | help
  | verbose
  | logFile
  | outputDir
  | dryRun
  deriving DecidableEq

def Flag.names : Flag → List String
  | .help => ["-h", "--help"]
  | .verbose => ["-v", "--verbose"]
  | .logFile => ["--log-file"]
  | .outputDir => ["--output-dir"]
  | .dryRun => ["--dry-run"]

def Flag.takesValue : Flag → Bool
  | .logFile => true
  | .outputDir => true
  | _ => false

def Flag.shown (f : Flag) : String := join "/" f.names

inductive Misuse where
  | ambiguous (text : String) (names : List String)
  | noValue (flag : Flag)
  | unwantedValue (flag : Flag) (value : String)
  | unknownCommand (text : String)
  | noCommand
  | unrecognized (texts : List String)

def commandNames : List String := ["structure", "mocks"]

def Misuse.message : Misuse → String
  | .ambiguous text names => "ambiguous option: " ++ text ++ " could match " ++ join ", " names
  | .noValue flag => s!"argument {flag.shown}: expected one argument"
  | .unwantedValue flag value =>
    s!"argument {flag.shown}: ignored explicit argument {quoted value}"
  | .unknownCommand text =>
    "argument command: invalid choice: " ++ quoted text ++ " (choose from " ++
      join ", " (commandNames.map fun (name : String) => quoted name) ++ ")"
  | .noCommand => "the following arguments are required: command"
  | .unrecognized texts => "unrecognized arguments: " ++ join " " texts

inductive Attached where
  | equals (value : String)
  | joined (value : String)

def Attached.value : Attached → String
  | .equals value => value
  | .joined value => value

/-- A use of a flag under one of its names, perhaps with a value in the same text. -/
structure Use where
  flag : Flag
  name : String
  value : Option Attached

inductive Word where
  | plain (text : String)
  /-- Two dashes, after which every text is plain. -/
  | divider
  | use (u : Use)
  | unknown (text : String)

def allNames (flags : List Flag) : List (String × Flag) :=
  flags.flatMap fun f => f.names.map fun name => (name, f)

def flagNamed? (flags : List Flag) (name : String) : Option Flag :=
  ((allNames flags).find? fun entry => entry.1 = name).map (·.2)

def cutAtEquals (cs : List Char) : List Char × Option Attached :=
  match cutAt? ['='] cs with
  | some (name, value) => (name, some (.equals (String.ofList value)))
  | none => (cs, none)

def startsWith (start name : List Char) : Bool := (after? start name).isSome

/-- The uses that a text with two dashes at its start may be cut short from. -/
def longUses (flags : List Flag) (cs : List Char) : List Use :=
  let (start, value) := cutAtEquals cs
  ((allNames flags).filter fun entry => startsWith start entry.1.toList).map fun entry =>
    ⟨entry.2, entry.1, value⟩

/-- The uses of a text with one dash: a short flag with the rest as its value. -/
def shortUses (flags : List Flag) (cs : List Char) : List Use :=
  ((allNames flags).filter fun entry => entry.1.toList = cs.take 2).map fun entry =>
    ⟨entry.2, entry.1, some (.joined (String.ofList (cs.drop 2)))⟩

def isNumeral (c : Char) : Bool := (digitValue? c).isSome

/-- A negative number, with one line feed at its end not looked at. -/
def isNegativeNumber (cs : List Char) : Bool :=
  let body := if cs.getLast? = some '\n' then cs.dropLast else cs
  let size := body.drop 1
  let fraction := (size.dropWhile isNumeral).drop 1
  body.head? = some '-' &&
    ((!size.isEmpty && size.all isNumeral) ||
      ((size.dropWhile isNumeral).head? = some '.' && !fraction.isEmpty && fraction.all isNumeral))

/-- What a text that begins with a dash, and is no flag's whole name, is taken for. -/
def dashed (flags : List Flag) (text : String) : Except Misuse Word :=
  let cs := text.toList
  let (name, value) := cutAtEquals cs
  match flagNamed? flags (String.ofList name), value with
  | some flag, some value => .ok (.use ⟨flag, String.ofList name, some value⟩)
  | _, _ =>
    match if cs[1]? = some '-' then longUses flags cs else shortUses flags cs with
    | [] =>
      if isNegativeNumber cs || cs.contains ' ' then .ok (.plain text) else .ok (.unknown text)
    | [use] => .ok (.use use)
    | uses => .error (.ambiguous text (uses.map (·.name)))

def word (flags : List Flag) (text : String) : Except Misuse Word :=
  match text.toList with
  | '-' :: _ :: _ =>
    match flagNamed? flags text with
    | some flag => .ok (.use ⟨flag, text, none⟩)
    | none => dashed flags text
  | _ => .ok (.plain text)

def words (flags : List Flag) : List String → Except Misuse (List Word)
  | [] => .ok []
  | text :: texts =>
    if text = "--" then .ok (.divider :: texts.map .plain)
    else do
      let first ← word flags text
      let rest ← words flags texts
      .ok (first :: rest)

structure Spread where
  uses : List Use
  unknown : Option String

def letters (flags : List Flag) (first : Use) : List Char → Except Misuse Spread
  | [] => .ok ⟨[first], none⟩
  | '=' :: value => .error (.unwantedValue first.flag (String.ofList value))
  | '-' :: more => .error (.unwantedValue first.flag (String.ofList ('-' :: more)))
  | letter :: more =>
    let name := String.ofList ['-', letter]
    match flagNamed? flags name with
    | none => .ok ⟨[first], some (String.ofList ('-' :: letter :: more))⟩
    | some flag => do
      let rest ← letters flags ⟨flag, name, none⟩ more
      .ok { rest with uses := first :: rest.uses }

def spread (flags : List Flag) (u : Use) : Except Misuse Spread :=
  if u.flag.takesValue then .ok ⟨[u], none⟩
  else
    match u.value with
    | none => .ok ⟨[u], none⟩
    | some (.equals value) => .error (.unwantedValue u.flag value)
    | some (.joined value) => letters flags ⟨u.flag, u.name, none⟩ value.toList

end ModuleStubs.CommandLine
