import ModuleStubs.Text.Digit

/-! What a scalar without quotes is, by its form: a word for nothing or a truth
value, a whole number, a fraction, a moment, or plain text. -/

namespace ModuleStubs.Yaml

inductive Tag where
  | null
  | bool
  | int
  | float
  | binary
  | timestamp
  | omap
  | pairs
  | set
  | str
  | seq
  | map
  | merge
  | value
  | other
  deriving DecidableEq

def standardSpace : String := "tag:yaml.org,2002:"

def Tag.named : List (String × Tag) :=
  [("null", .null), ("bool", .bool), ("int", .int), ("float", .float), ("binary", .binary),
    ("timestamp", .timestamp), ("omap", .omap), ("pairs", .pairs), ("set", .set), ("str", .str),
    ("seq", .seq), ("map", .map), ("merge", .merge), ("value", .value)]

def Tag.ofUri (uri : String) : Tag :=
  ((Tag.named.find? fun entry => standardSpace ++ entry.1 = uri).map (·.2)).getD .other

namespace Form

open Text

def nullWords : List String := ["", "~", "null", "Null", "NULL"]

def truthWords : List String :=
  ["yes", "Yes", "YES", "no", "No", "NO", "true", "True", "TRUE", "false", "False", "FALSE",
    "on", "On", "ON", "off", "Off", "OFF"]

def unsigned : List Char → List Char
  | '+' :: rest => rest
  | '-' :: rest => rest
  | cs => cs

def isDigitOrLow (c : Char) : Bool := isDigit c || c = '_'

def isSixtieth : List Char → Bool
  | [c] => isDigit c
  | [c, d] => '0' ≤ c && c ≤ '5' && isDigit d
  | _ => false

def isSixtieths : (part : List Char) → List Char → Bool
  | part, [] => isSixtieth part.reverse
  | part, c :: cs =>
    if c = ':' then isSixtieth part.reverse && isSixtieths [] cs else isSixtieths (c :: part) cs

def startsWithDigit : List Char → Bool
  | c :: _ => isDigit c
  | [] => false

def startsWithoutZero : List Char → Bool
  | c :: _ => isDigit c && c ≠ '0'
  | [] => false

/-- A number of sixtieths: a leading part, then at least one part after a colon. -/
def isSexagesimal (cs : List Char) : Bool :=
  match cs.dropWhile isDigitOrLow with
  | ':' :: rest => isSixtieths [] rest
  | _ => false

def isWhole (cs : List Char) : Bool :=
  match unsigned cs with
  | '0' :: 'b' :: ds => !ds.isEmpty && ds.all fun c => c = '0' || c = '1' || c = '_'
  | '0' :: 'x' :: ds =>
    !ds.isEmpty && ds.all fun c =>
      isDigitOrLow c || ('a' ≤ c && c ≤ 'f') || ('A' ≤ c && c ≤ 'F')
  | '0' :: ds => ds.all fun c => ('0' ≤ c && c ≤ '7') || c = '_'
  | ds => startsWithoutZero ds && (ds.all isDigitOrLow || isSexagesimal ds)

def isExponent : List Char → Bool
  | [] => true
  | e :: sign :: ds =>
    (e = 'e' || e = 'E') && (sign = '+' || sign = '-') && !ds.isEmpty && ds.all isDigit
  | _ => false

def isFraction (cs : List Char) : Bool :=
  match unsigned cs with
  | '.' :: rest =>
    ["inf", "Inf", "INF"].contains (String.ofList rest) ||
      (cs.head? = some '.' &&
        (["nan", "NaN", "NAN"].contains (String.ofList rest) ||
          (startsWithDigit rest && isExponent (rest.dropWhile isDigitOrLow))))
  | ds =>
    startsWithDigit ds &&
      match ds.dropWhile isDigitOrLow with
      | '.' :: rest => isExponent (rest.dropWhile isDigitOrLow)
      | ':' :: rest =>
        isSixtieths [] (rest.takeWhile (· ≠ '.')) &&
          match rest.dropWhile (· ≠ '.') with
          | '.' :: more => more.all isDigitOrLow
          | _ => false
      | _ => false

end Form

end ModuleStubs.Yaml
