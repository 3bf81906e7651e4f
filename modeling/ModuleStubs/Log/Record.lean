import ModuleStubs.Text.Wording

/-! Log records: a stage of the program, a level and a message. -/

namespace ModuleStubs

inductive Level where
  | debug
  | info
  | warning
  | error
  | critical
  deriving DecidableEq

def Level.rank : Level → Nat
  | .debug => 10
  | .info => 20
  | .warning => 30
  | .error => 40
  | .critical => 50

def Level.name : Level → String
  | .debug => "DEBUG"
  | .info => "INFO"
  | .warning => "WARNING"
  | .error => "ERROR"
  | .critical => "CRITICAL"

structure Record where
  stage : String
  level : Level
  message : Wording

def programName : String := "nativestub"

def stageName (stage : String) : String :=
  if stage = "" then programName else programName ++ "." ++ stage

def Record.shownStage (r : Record) : String := if r.stage = "" then programName else r.stage

/-- Whether cutting a name at its dots, from the right, leads to the program's name. The
character before a dot is not looked at for a further dot, unless what is in front of the dot
is a known name. -/
def leadsToProgram (known : List String) (fuel : Nat) (reversed : List Char) : Bool :=
  match fuel, reversed.dropWhile (· ≠ '.') with
  | fuel + 1, _ :: rest =>
    rest = programName.toList.reverse ||
      leadsToProgram known fuel (if String.ofList rest.reverse ∈ known then rest else rest.drop 1)
  | _, _ => false

def Record.isAttachedAmong (known : List String) (r : Record) : Bool :=
  r.stage = "" ||
    leadsToProgram known (stageName r.stage).length (stageName r.stage).toList.reverse

def Record.isAttached (r : Record) : Bool := r.isAttachedAmong []

end ModuleStubs
