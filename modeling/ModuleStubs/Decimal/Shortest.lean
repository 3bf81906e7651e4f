import ModuleStubs.Decimal.Binary64
import ModuleStubs.Text.Digit

/-! The fewest decimal digits that read back to a number, and of those the
nearest. A number's two neighbours on the grid of one power of ten are tried,
from coarse grids to fine ones. -/

namespace ModuleStubs.Decimal

/-- The number `digits * 10 ^ scale`. -/
structure GridPoint where
  digits : Nat
  scale : Int

def GridPoint.ratio (d : GridPoint) : Ratio := Ratio.scale ⟨d.digits, 1⟩ 10 d.scale

def magnitude (r : Ratio) : Int :=
  let guess : Int := (Text.digits r.num).length - (Text.digits r.den).length
  if (Ratio.scale ⟨1, 1⟩ 10 guess).le r then guess else guess - 1

def nearerAbove (scaled : Ratio) (below : Nat) : Bool :=
  let past := 2 * (scaled.num - below * scaled.den)
  scaled.den < past || (past == scaled.den && below % 2 == 1)

def onGrid? (b : Binary64) (scale : Int) : Option GridPoint :=
  let scaled := b.value.scale 10 (-scale)
  let below := scaled.num / scaled.den
  let lowFits := b.covers (GridPoint.ratio ⟨below, scale⟩)
  let highFits := b.covers (GridPoint.ratio ⟨below + 1, scale⟩)
  if lowFits && !(highFits && nearerAbove scaled below) then some ⟨below, scale⟩
  else if highFits then some ⟨below + 1, scale⟩
  else none

/-- Seventeen digits always suffice, so the search ends with the exact floor there. -/
def shortestFrom (b : Binary64) (scale : Int) : (finer : Nat) → GridPoint
  | 0 => let scaled := b.value.scale 10 (-scale); ⟨scaled.num / scaled.den, scale⟩
  | finer + 1 => (onGrid? b scale).getD (shortestFrom b (scale - 1) finer)

def shortest (b : Binary64) : GridPoint := shortestFrom b (magnitude b.value) 17

end ModuleStubs.Decimal
