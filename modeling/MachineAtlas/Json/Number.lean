-- SUMMARY: The spelling of numbers and the quantities that they stand for.
import MachineAtlas.Decimal.Binary64
/-!
# Numbers

The spelling of a number and the quantity it stands for: an integer of at most 64 bits, or a binary
number computed from its first digits and its exponent.
-/
namespace MachineAtlas.Json

open MachineAtlas.Decimal (Binary64)

/-- A number as spelled: its digits, those after the point (none if there is no point), and the
sign and digits of the exponent. -/
structure Number where
  negative : Bool
  whole : List Nat
  fraction : List Nat
  exponent : Option (Bool × List Nat)
  deriving DecidableEq, Repr

/-- What a number stands for. -/
inductive Quantity where
  | integer (n : Int)
  | decimal (negative : Bool) (magnitude : Binary64)
  deriving DecidableEq, Repr

namespace Number

/-! ## Spelling -/

/-- A number and what follows it; or the document ends inside; or the number is malformed. -/
inductive Scan where
  | found (n : Number) (rest : List Char)
  | cut
  | malformed
  deriving DecidableEq, Repr

def isDigit (c : Char) : Bool := '0' ≤ c ∧ c ≤ '9'

/-- The digits at the front of a text, and what follows them. -/
def digits (cs : List Char) : List Nat × List Char :=
  ((cs.takeWhile isDigit).map (fun c => c.toNat - 48), cs.dropWhile isDigit)

/-- Digits where there has to be one. -/
def someDigits (cs : List Char) (next : List Nat → List Char → Scan) : Scan :=
  match digits cs with
  | ([], []) => .cut
  | ([], _ :: _) => .malformed
  | (ds, rest) => next ds rest

def scanExponent (negative : Bool) (whole fraction : List Nat) : List Char → Scan
  | c :: rest =>
    if c = 'e' ∨ c = 'E' then
      let (minus, rest) := match rest with
        | '+' :: r => (false, r)
        | '-' :: r => (true, r)
        | r => (false, r)
      someDigits rest fun ds rest => .found ⟨negative, whole, fraction, some (minus, ds)⟩ rest
    else .found ⟨negative, whole, fraction, none⟩ (c :: rest)
  | [] => .found ⟨negative, whole, fraction, none⟩ []

def scanFraction (negative : Bool) (whole : List Nat) : List Char → Scan
  | '.' :: rest => someDigits rest fun ds rest => scanExponent negative whole ds rest
  | rest => scanExponent negative whole [] rest

/-- The number after its sign: no digit may follow a leading zero. -/
def scanMagnitude (negative : Bool) (cs : List Char) : Scan :=
  someDigits cs fun ds rest =>
    match ds with
    | 0 :: _ :: _ => .malformed
    | ds => scanFraction negative ds rest

def scan : List Char → Scan
  | '-' :: rest => scanMagnitude true rest
  | cs => scanMagnitude false cs

/-! ## Quantity -/

/-- Appends digits to a significand while it fits 64 bits, and counts the digits left over. -/
def gather : Nat → List Nat → Nat × Nat
  | s, [] => (s, 0)
  | s, d :: ds => if s * 10 + d < UInt64.size then gather (s * 10 + d) ds else (s, ds.length + 1)

def ofDigits (ds : List Nat) : Nat := ds.foldl (fun n d => n * 10 + d) 0

/-- The power of ten that one scaling step takes. -/
def stride : Nat := 308

/-- Divides by `10 ^ e`, a stride at a time, each quotient rounded. -/
def shrink (x : Binary64) (e : Nat) : Nat → Option Binary64
  | 0 => none
  | fuel + 1 =>
    if e ≤ stride then do x.div (← Binary64.ofNat (Nat.pow 10 e))
    else if x.isZero then some x
    else do shrink (← x.div (← Binary64.ofNat (Nat.pow 10 stride))) (e - stride) fuel

/-- `significand * 10 ^ e`, rounded once for the significand and once for each scaling step; none
if that lies beyond the largest binary number. -/
def scaled (significand : Nat) (e : Int) : Option Binary64 := do
  let x ← Binary64.ofNat significand
  if e < 0 then shrink x e.natAbs (e.natAbs / stride + 1)
  else if e.toNat ≤ stride then x.mul (← Binary64.ofNat (Nat.pow 10 e.toNat))
  else if x.isZero then some x
  else none

/-- The exponents that are computed with; a larger one leaves zero or nothing. -/
def greatestExponent : Nat := Nat.pow 2 31 - 1

def decimalMagnitude (significand : Nat) (shift : Int) : Option (Bool × List Nat) → Option Binary64
  | none => scaled significand shift
  | some (minus, ds) =>
    let e := ofDigits ds
    if greatestExponent < e then
      if significand = 0 ∨ minus then some Binary64.zero else none
    else scaled significand (if minus then shift - e else shift + e)

/-- The quantity that a number stands for, or none if it is out of range. A number without point and
exponent is an integer if it lies between `-2 ^ 63` and `2 ^ 64 - 1` and is not a negative zero. -/
def quantity (n : Number) : Option Quantity :=
  let (significand, excess) := gather 0 n.whole
  if n.fraction.isEmpty ∧ n.exponent.isNone ∧ excess = 0 then
    if ¬ n.negative then some (.integer significand)
    else if significand = 0 ∨ Nat.pow 2 63 < significand then
      (Binary64.ofNat significand).map (.decimal true)
    else some (.integer (-significand))
  else
    let (significand, left) := gather significand n.fraction
    let shift : Int := (excess : Int) - (n.fraction.length - left : Nat)
    (decimalMagnitude significand shift n.exponent).map (.decimal n.negative)

end Number

end MachineAtlas.Json
