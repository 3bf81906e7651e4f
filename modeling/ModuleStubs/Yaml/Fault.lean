import ModuleStubs.Text.Numeral
import ModuleStubs.Text.Quoted

/-! Why YAML text cannot be loaded. Most texts fail because they are not YAML or
hold something that has no value here; the other faults come from a scalar that
looks like a number, a truth value or a moment and is none. -/

namespace ModuleStubs.Yaml

inductive MomentFault where
  | year
  | month
  | day
  | hour
  | minute
  | second
  /-- A distance from universal time of a day or more, in minutes. -/
  | offset (minutes : Int)

/-- A span of minutes as days and seconds; the days are rounded down. -/
def spanText (minutes : Int) : String :=
  let days := minutes.fdiv 1440
  let seconds := (minutes.fmod 1440) * 60
  let parts :=
    (if days = 0 then [] else [s!"days={days}"]) ++
      (if seconds = 0 then [] else [s!"seconds={seconds}"])
  "datetime.timedelta(" ++ (if parts.isEmpty then "0" else ", ".intercalate parts) ++ ")"

def MomentFault.message : MomentFault → String
  | .year => "year 0 is out of range"
  | .month => "month must be in 1..12"
  | .day => "day is out of range for month"
  | .hour => "hour must be in 0..23"
  | .minute => "minute must be in 0..59"
  | .second => "second must be in 0..59"
  | .offset minutes =>
    "offset must be a timedelta strictly between -timedelta(hours=24) and " ++
      "timedelta(hours=24), not " ++ spanText minutes ++ "."

inductive Fault where
  | malformed
  | numeral (why : Text.Numeral.Fault)
  /-- The word of a number or a sign with nothing after it. -/
  | emptyNumeral
  | notDecimal (text : String)
  | notTruthValue (text : String)
  | notMoment
  | moment (why : MomentFault)
  /-- An escape for a number that is no character. -/
  | noCharacter (code : Nat)

end ModuleStubs.Yaml
