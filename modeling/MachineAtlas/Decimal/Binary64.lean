-- SUMMARY: Non-negative 64-bit binary numbers and rounding a quotient to the nearest one.
/-!
# Binary64 magnitudes

The non-negative finite numbers of the 64-bit binary format, as `significand * 2 ^ exponent`, and
rounding of a quotient of naturals to the nearest of them, a tie going to the even significand.
-/
namespace MachineAtlas.Decimal

/-- A number `significand * 2 ^ exponent` with at most 53 bits of significand. -/
structure Binary64 where
  significand : Nat
  exponent : Int
  deriving DecidableEq, Repr

namespace Binary64

/-- The exponent of the finest binade, which the subnormal numbers share. -/
def finest : Int := -1074

/-- The exponent of the coarsest binade. -/
def coarsest : Int := 971

def zero : Binary64 := ⟨0, finest⟩

def isZero (x : Binary64) : Bool := x.significand == 0

/-! ## Rounding -/

/-- `num / (den * 2 ^ e)` as a quotient of naturals. -/
def shifted (num den : Nat) (e : Int) : Nat × Nat :=
  if 0 ≤ e then (num, den <<< e.toNat) else (num <<< (-e).toNat, den)

/-- The natural nearest to `num / den`; of two equally near, the even one. -/
def roundDiv (num den : Nat) : Nat :=
  let q := num / den
  let twice := 2 * (num % den)
  if twice < den then q
  else if den < twice then q + 1
  else if q % 2 = 0 then q else q + 1

/-- The exponent at which `num / den` has 53 bits, or `finest` if that is larger. -/
def binadeOf (num den : Nat) : Int :=
  let e : Int := (num.log2 : Int) - (den.log2 : Int) - 53
  let (n, d) := shifted num den e
  max finest (if n < d <<< 53 then e else e + 1)

/-- The number nearest to `num / den`, or none if that lies beyond the largest finite one. -/
def nearest (num den : Nat) : Option Binary64 :=
  if num = 0 then some zero
  else
    let e := binadeOf num den
    let (n, d) := shifted num den e
    let m := roundDiv n d
    let x : Binary64 := if m < 1 <<< 53 then ⟨m, e⟩ else ⟨m / 2, e + 1⟩
    if coarsest < x.exponent then none else some x

/-- The number as a quotient of naturals. -/
def ratio (x : Binary64) : Nat × Nat :=
  if 0 ≤ x.exponent then (x.significand <<< x.exponent.toNat, 1)
  else (x.significand, 1 <<< (-x.exponent).toNat)

/-- The rounded product, or none on overflow. -/
def mul (x y : Binary64) : Option Binary64 :=
  let (a, b) := x.ratio
  let (c, d) := y.ratio
  nearest (a * c) (b * d)

/-- The rounded quotient by a non-zero number, or none on overflow. -/
def div (x y : Binary64) : Option Binary64 :=
  let (a, b) := x.ratio
  let (c, d) := y.ratio
  nearest (a * d) (b * c)

/-- The number nearest to a natural. -/
def ofNat (n : Nat) : Option Binary64 := nearest n 1

end Binary64

end MachineAtlas.Decimal
