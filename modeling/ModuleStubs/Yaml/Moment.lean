import ModuleStubs.Text.Digit
import ModuleStubs.Yaml.Cursor
import ModuleStubs.Yaml.Fault

/-! Dates and moments in time, as numbers between fixed marks. -/

namespace ModuleStubs.Yaml

open Text

structure TimeOfDay where
  hour : Nat
  minute : Nat
  second : Nat
  /-- Minutes ahead of universal time, if the text gives a distance. -/
  offset : Option Int

structure Moment where
  year : Nat
  month : Nat
  day : Nat
  time : Option TimeOfDay

namespace Moment

def number? (least most : Nat) (cs : List Char) : Option (Nat × List Char) :=
  let ds := (cs.takeWhile isDigit).take most
  if ds.length < least then none else some (number ds, cs.drop ds.length)

def mark? (ch : Char) : List Char → Option (List Char)
  | c :: rest => if c = ch then some rest else none
  | [] => none

def dropBlanks (cs : List Char) : List Char := cs.dropWhile isBlank

def timeMark? : List Char → Option (List Char)
  | 'T' :: rest => some rest
  | 't' :: rest => some rest
  | c :: rest => if isBlank c then some (dropBlanks rest) else none
  | [] => none

def dropFraction : List Char → List Char
  | '.' :: rest => rest.dropWhile isDigit
  | cs => cs

def offset? (cs : List Char) : Option (Option Int) :=
  match dropBlanks cs with
  | [] => if cs.isEmpty then some none else none
  | ['Z'] => some none
  | sign :: rest => do
    if sign ≠ '+' ∧ sign ≠ '-' then none
    else
      let (hours, rest) ← number? 1 2 rest
      let minutes ←
        match rest with
        | [] => some 0
        | _ => do
          let (minutes, rest) ← number? 2 2 (← mark? ':' rest)
          if rest.isEmpty then some minutes else none
      let size : Int := hours * 60 + minutes
      some (some (if sign = '-' then -size else size))

def time? (cs : List Char) : Option TimeOfDay := do
  let (hour, rest) ← number? 1 2 cs
  let (minute, rest) ← number? 2 2 (← mark? ':' rest)
  let (second, rest) ← number? 2 2 (← mark? ':' rest)
  some ⟨hour, minute, second, ← offset? (dropFraction rest)⟩

def parse? (cs : List Char) : Option Moment := do
  let (year, rest) ← number? 4 4 cs
  let (month, rest) ← number? 1 2 (← mark? '-' rest)
  let (day, rest) ← number? 1 2 (← mark? '-' rest)
  if rest.isEmpty then some ⟨year, month, day, none⟩
  else some ⟨year, month, day, some (← time? (← timeMark? rest))⟩

/-- Text is taken for a moment when it has a time, or two digits for month and day. -/
def isWritten (cs : List Char) : Bool :=
  match parse? cs with
  | some m => m.time.isSome || cs.length = 10
  | none => false

def isLeap (year : Nat) : Bool := year % 4 = 0 && (year % 100 ≠ 0 || year % 400 = 0)

def daysIn (year : Nat) : (month : Nat) → Nat
  | 2 => if isLeap year then 29 else 28
  | 4 | 6 | 9 | 11 => 30
  | _ => 31

def dateFault? (m : Moment) : Option MomentFault :=
  if m.year = 0 then some .year
  else if m.month = 0 ∨ 12 < m.month then some .month
  else if m.day = 0 ∨ daysIn m.year m.month < m.day then some .day
  else none

def timeFault? (t : TimeOfDay) : Option MomentFault :=
  if 23 < t.hour then some .hour
  else if 59 < t.minute then some .minute
  else if 59 < t.second then some .second
  else none

def offsetFault? (m : Moment) : Option MomentFault :=
  match m.time.bind (·.offset) with
  | some minutes => if 1440 ≤ minutes.natAbs then some (.offset minutes) else none
  | none => none

/-- The first fault: the distance counts before the date, and the date before the time. -/
def fault? (m : Moment) : Option MomentFault :=
  (m.offsetFault?.or m.dateFault?).or (m.time.bind timeFault?)

end Moment

end ModuleStubs.Yaml
