-- SUMMARY: The shortest decimal that rounds back to a binary number, and its layout as text.
import MachineAtlas.Decimal.Binary64
/-!
# Shortest decimals

The decimal with the fewest digits that rounds back to a given binary number, and its layout as
text.
-/
namespace MachineAtlas.Decimal

/-- A number `digits * 10 ^ scale`. -/
structure Expansion where
  digits : Nat
  scale : Int
  deriving DecidableEq, Repr

/-! ## The rounding interval -/

/-- The numbers that round to one binary number, in units of `2 ^ unit`. -/
structure Interval where
  low : Nat
  mid : Nat
  high : Nat
  unit : Int
  /-- Whether the two ends round to the number too. -/
  closed : Bool

/-- The gap below a power of two is half the gap above it. -/
def Binary64.interval (x : Binary64) : Interval :=
  let m := 4 * x.significand
  let narrow := decide (x.significand = 1 <<< 52 ∧ Binary64.finest < x.exponent)
  { low := m - (if narrow then 1 else 2), mid := m, high := m + 2, unit := x.exponent - 2,
    closed := x.significand % 2 == 0 }

/-- `n` units of `2 ^ unit` over `10 ^ scale`, as a quotient of naturals. -/
def onGrid (n : Nat) (unit scale : Int) : Nat × Nat :=
  let up (base : Nat) (e : Int) : Nat := Nat.pow base e.toNat
  (n * up 2 unit * up 10 (-scale), up 2 (-unit) * up 10 scale)

/-- The point of the grid `10 ^ scale` in the interval that is nearest to its middle, if any. -/
def Interval.pointAt (i : Interval) (scale : Int) : Option Nat :=
  let (mid, den) := onGrid i.mid i.unit scale
  let (low, _) := onGrid i.low i.unit scale
  let (high, _) := onGrid i.high i.unit scale
  let below := mid / den
  let above := below + 1
  let fitsLow := if i.closed then low ≤ below * den else low < below * den
  let fitsHigh := if i.closed then above * den ≤ high else above * den < high
  if fitsLow ∧ (¬ fitsHigh ∨ 2 * (mid % den) ≤ den) then some below
  else if fitsHigh then some above
  else none

/-- The first grid with a point in the interval, from `10 ^ scale` to finer ones. -/
def Interval.coarsestPoint (i : Interval) : Nat → Int → Expansion
  | 0, scale => ⟨0, scale⟩
  | fuel + 1, scale =>
    match i.pointAt scale with
    | some digits => ⟨digits, scale⟩
    | none => i.coarsestPoint fuel (scale - 1)

/-- The decimal of fewest digits that rounds back to `x`, and of those the nearest: every binary
number lies on a grid between `10 ^ 309` and `10 ^ -1074`. -/
def Binary64.shortest (x : Binary64) : Expansion :=
  if x.isZero then ⟨0, 0⟩ else x.interval.coarsestPoint 1400 309

/-! ## Layout -/

/-- The decisions of a layout: which powers of ten of the leading digit are written without an
exponent, and how many digits an exponent has at least. -/
structure Style where
  least : Int
  greatest : Int
  exponentDigits : Nat

/-- From `1e-5` up to below `1e16` a number is written out; beyond, its exponent has a sign and
two digits or more. -/
def plain : Style := ⟨-5, 15, 2⟩

def zeros (n : Nat) : List Char := List.replicate n '0'

/-- A number written out in full, with a digit at least on each side of the point. -/
def positional (digits : List Char) (scale : Int) : List Char :=
  let point := (digits.length : Int) + scale
  if 0 ≤ scale then digits ++ zeros scale.toNat ++ ['.', '0']
  else if 0 < point then digits.take point.toNat ++ '.' :: digits.drop point.toNat
  else '0' :: '.' :: zeros (-point).toNat ++ digits

/-- The exponent of `e` in a layout of at least `width` digits. -/
def exponentText (width : Nat) (e : Int) : List Char :=
  let digits := (toString e.natAbs).toList
  'e' :: (if e < 0 then '-' else '+') :: zeros (width - digits.length) ++ digits

def scientific (width : Nat) (digits : List Char) (leading : Int) : List Char :=
  let mantissa := match digits with
    | d :: rest@(_ :: _) => d :: '.' :: rest
    | short => short
  mantissa ++ exponentText width leading

def Expansion.text (style : Style) (d : Expansion) : List Char :=
  let digits := (toString d.digits).toList
  let leading := (digits.length : Int) - 1 + d.scale
  if style.least ≤ leading ∧ leading ≤ style.greatest then positional digits d.scale
  else scientific style.exponentDigits digits leading

/-- A signed number in its shortest form. -/
def Binary64.text (negative : Bool) (x : Binary64) : List Char :=
  (if negative then ['-'] else []) ++ x.shortest.text plain

end MachineAtlas.Decimal
