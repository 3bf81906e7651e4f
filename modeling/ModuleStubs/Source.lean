import ModuleStubs.Path
import ModuleStubs.Text.Utf8

/-! Source files and the text that a span of their bytes covers. -/

namespace ModuleStubs

structure Source where
  path : Path
  content : String

namespace Source

def clampIndex (size : Nat) (i : Int) : Nat :=
  if i < 0 then (size + i).toNat else min i.toNat size

def slice {α : Type} (items : List α) (start stop : Int) : List α :=
  let first := clampIndex items.length start
  (items.take (clampIndex items.length stop)).drop first

def bytes (s : Source) : List UInt8 := Text.Utf8.encode s.content.toList

/-- The covered text without double quotes; a character cut in two reads as replaced. -/
def textAt (s : Source) (offset length : Int) : String :=
  let covered := Text.Utf8.decodeLenient (slice s.bytes offset (offset + length))
  String.ofList (covered.filter (· ≠ '"'))

def textAt? (s : Source) (offset length : Option Int) : Option String := do
  some (s.textAt (← offset) (← length))

end Source

end ModuleStubs
