import ModuleStubs.Decimal.Shortest

/-! How a number's digits are laid out: positional or with an exponent. -/

namespace ModuleStubs.Decimal

structure Layout where
  /-- Powers of ten of the leading digit that are written positionally, from … below. -/
  positionalFrom : Int
  positionalBelow : Int
  wholeSuffix : List Char
  exponentMark : Char
  plusSign : Bool
  exponentWidth : Nat
  infinity : String
  notANumber : String

def plain : Layout :=
  ⟨-4, 16, ['.', '0'], 'e', true, 2, "inf", "nan"⟩

def padded (width n : Nat) : List Char :=
  let ds := Text.digits n
  List.replicate (width - ds.length) '0' ++ ds

def significant (n : Nat) : List Char :=
  match ((Text.digits n).reverse.dropWhile (· == '0')).reverse with
  | [] => ['0']
  | ds => ds

def withExponent (layout : Layout) (ds : List Char) (lead : Int) : List Char :=
  let fraction := if ds.length ≤ 1 then [] else '.' :: ds.drop 1
  let sign := if lead < 0 then ['-'] else if layout.plusSign then ['+'] else []
  ds.take 1 ++ fraction ++ layout.exponentMark :: sign ++
    padded layout.exponentWidth lead.natAbs

def positional (layout : Layout) (ds : List Char) (lead : Int) : List Char :=
  if lead < 0 then '0' :: '.' :: List.replicate (lead.natAbs - 1) '0' ++ ds
  else
    let whole := lead.toNat + 1
    if ds.length ≤ whole then
      ds ++ List.replicate (whole - ds.length) '0' ++ layout.wholeSuffix
    else ds.take whole ++ '.' :: ds.drop whole

def sizeText (layout : Layout) (b : Binary64) : List Char :=
  let d := shortest b
  let ds := significant d.digits
  let lead := d.scale + ((Text.digits d.digits).length - 1 : Nat)
  if layout.positionalFrom ≤ lead ∧ lead < layout.positionalBelow then positional layout ds lead
  else withExponent layout ds lead

def floatText (layout : Layout) (x : Float) : String :=
  let sign := if isNegative x then "-" else ""
  match kind x with
  | .notANumber => layout.notANumber
  | .infinite => sign ++ layout.infinity
  | .zero => sign ++ String.ofList ('0' :: layout.wholeSuffix)
  | .finite size => sign ++ String.ofList (sizeText layout size)

end ModuleStubs.Decimal
