import ModuleStubs.Text.Blank
import ModuleStubs.Text.Digit
import ModuleStubs.Text.Quoted

/-! Whole numbers as text. Decimal text may be limited to some number of digits in both
directions; digits in a base that is a power of two are not. -/

namespace ModuleStubs.Text.Numeral

/-- How many digits decimal text may have; none, if there is no limit. -/
abbrev Limit := Option Nat

def maxDigits : Nat := 4300

def Limit.usual : Limit := some maxDigits

def Limit.exceeded? (limit : Limit) (digits : Nat) : Option Nat := limit.filter (· < digits)

theorem Limit.exceeded?_some (most digits : Nat) :
    exceeded? (some most) digits = if most < digits then some most else none := by
  simp [exceeded?, Option.filter]

inductive Fault where
  | tooLongToWrite (limit : Nat)
  | tooLongToRead (limit digits : Nat)
  | malformed (base : Nat) (text : String)

def Fault.message : Fault → String
  | .tooLongToWrite limit =>
    s!"Exceeds the limit ({limit} digits) for integer string conversion; " ++
      "use sys.set_int_max_str_digits() to increase the limit"
  | .tooLongToRead limit n =>
    s!"Exceeds the limit ({limit} digits) for integer string conversion: " ++
      s!"value has {n} digits; use sys.set_int_max_str_digits() to increase the limit"
  | .malformed base text => s!"invalid literal for int() with base {base}: {quoted text}"

def signed (n : Int) : List Char :=
  if n < 0 then '-' :: digits n.natAbs else digits n.natAbs

def text (n : Int) : String := String.ofList (signed n)

def write (limit : Limit) (n : Int) : Except Fault String :=
  match limit.exceeded? (digits n.natAbs).length with
  | some most => .error (.tooLongToWrite most)
  | none => .ok (text n)

def read (cs : List Char) : Except Fault Nat :=
  if maxDigits < cs.length then .error (.tooLongToRead maxDigits cs.length) else .ok (number cs)

/-- A blank around a numeral: the control characters from 28 to 31 do not count. -/
def isMargin (c : Char) : Bool := isBlank c && !(28 ≤ c.toNat && c.toNat ≤ 31)

def trimMargins (cs : List Char) : List Char :=
  (((cs.dropWhile isMargin).reverse).dropWhile isMargin).reverse

def plainDigit (c : Char) : Char :=
  match digitValue? c with
  | some value => Char.ofNat ('0'.toNat + value)
  | none => c

/-- An underscore may stand between two digits, and nowhere else. -/
def dropUnderscores? : (afterDigit : Bool) → List Char → Option (List Char)
  | _, [] => some []
  | afterDigit, '_' :: c :: rest =>
    if afterDigit && isDigit c then (dropUnderscores? true rest).map (c :: ·) else none
  | _, c :: rest =>
    if c = '_' then none else (dropUnderscores? (isDigit c) rest).map (c :: ·)

end ModuleStubs.Text.Numeral
