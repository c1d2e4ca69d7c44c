import Telemetry.Binary64.Basic

/-!
# Decimal forms of binary64 numbers

A decimal is an integer coefficient with a power of ten.  This module holds the
two directions between decimals and binary64 numbers: the number nearest to a
decimal, and the shortest decimal that reads back as a number.
-/

namespace Telemetry

/-- The value `coefficient * 10 ^ exponent`. -/
structure Decimal where
  coefficient : Nat
  exponent : Int
  deriving DecidableEq, Repr

namespace Decimal

/-- The decimal digits of a natural number, the most significant first. -/
def digits (n : Nat) : List Char :=
  Nat.toDigits 10 n

/-- Moves up to `fuel` zeros from the end of the coefficient
into the exponent. -/
def trimZeros : Nat → Decimal → Decimal
  | 0, d => d
  | fuel + 1, d =>
    if d.coefficient % 10 = 0 then
      trimZeros fuel ⟨d.coefficient / 10, d.exponent + 1⟩
    else d

/-- The decimal of equal value whose coefficient does not end in zero;
zero is `0 * 10 ^ 0`. -/
def normalize (d : Decimal) : Decimal :=
  if d.coefficient = 0 then ⟨0, 0⟩
  else trimZeros (digits d.coefficient).length d

end Decimal

namespace Binary64

def powerOfTen (n : Nat) : Nat := Nat.pow 10 n

/-- Every decimal of this order of magnitude or more rounds to infinity. -/
def overflowOrder : Int := 310

/-- Every decimal of this order of magnitude or less rounds to zero. -/
def underflowOrder : Int := -330

/-- The binary64 number nearest to a decimal. -/
def ofDecimal (negative : Bool) (d : Decimal) : Binary64 :=
  let order := (Decimal.digits d.coefficient).length + d.exponent
  if d.coefficient = 0 then ofPattern negative 0
  else if order > overflowOrder then infinity negative
  else if order < underflowOrder then ofPattern negative 0
  else if d.exponent < 0 then
    ofRatio negative d.coefficient (powerOfTen d.exponent.natAbs)
  else ofRatio negative (d.coefficient * powerOfTen d.exponent.natAbs) 1

/-- Which of two equally near decimals is chosen. -/
inductive Tie where
  /-- The greater one. -/
  | up
  /-- The one with the even last digit. -/
  | even
  deriving DecidableEq, Repr

/-- The reals that round to one finite positive number, as an interval of
integers over a common denominator: `low ≤ value ≤ high`, the ends
included when `closed`. -/
structure RoundingInterval where
  low : Nat
  value : Nat
  high : Nat
  denominator : Nat
  closed : Bool

/-- The interval of the reals that round to a finite number other than zero. -/
def roundingInterval (x : Binary64) : RoundingInterval :=
  let m := x.significand
  let unit := 1 <<< x.scale
  -- the neighbour below a power of two is half as far away as the one above
  let below := if m = exponentUnit ∧ 0 < x.scale then 1 else 2
  { low := (4 * m - below) * unit
    value := 4 * m * unit
    high := (4 * m + 2) * unit
    denominator := 4 * unitsPerOne
    closed := m % 2 == 0 }

/-- Whether the upper of two neighbours is chosen when the lower one is `lower`
and the value lies above it by the fraction `rest / den` of their distance. -/
def Tie.choosesUpper (tie : Tie) (lower rest den : Nat) : Bool :=
  den < 2 * rest || (2 * rest == den && (tie == .up || lower % 2 == 1))

namespace RoundingInterval

/-- Whether the interval holds `num / den`. -/
def contains (i : RoundingInterval) (num den : Nat) : Bool :=
  let point := num * i.denominator
  if i.closed then i.low * den ≤ point && point ≤ i.high * den
  else i.low * den < point && point < i.high * den

/-- The power of ten `k` with `10 ^ k ≤ value / denominator < 10 ^ (k + 1)`. -/
def order (i : RoundingInterval) : Int :=
  -- an estimate from the binary length, at most one too large
  let bits : Int := i.value.log2 - i.denominator.log2
  let estimate := Int.fdiv (bits * 30103) 100000 + 1
  let reached (k : Int) : Bool :=
    if k < 0 then i.denominator ≤ i.value * powerOfTen k.natAbs
    else i.denominator * powerOfTen k.natAbs ≤ i.value
  if reached estimate then estimate
  else if reached (estimate - 1) then estimate - 1
  else estimate - 2

/-- The multiple of `10 ^ k` in the interval nearest to the value, if one of the
two neighbours of the value on that grid lies in the interval. -/
def nearestOnGrid (tie : Tie) (i : RoundingInterval) (k : Int) : Option Nat :=
  let num := if k < 0 then i.value * powerOfTen k.natAbs else i.value
  let den :=
    if k < 0 then i.denominator else i.denominator * powerOfTen k.natAbs
  let inside (c : Nat) : Bool :=
    if k < 0 then i.contains c (powerOfTen k.natAbs)
      else i.contains (c * powerOfTen k.natAbs) 1
  let lower := num / den
  match inside lower, inside (lower + 1) with
  | true, true =>
    some (if tie.choosesUpper lower (num % den) den then lower + 1 else lower)
  | true, false => some lower
  | false, true => some (lower + 1)
  | false, false => none

/-- The first grid from `10 ^ k` downwards, of at most `fuel` grids, that
meets the interval. -/
def coarsest (tie : Tie) (i : RoundingInterval) : Nat → Int → Decimal
  | 0, _ => ⟨0, 0⟩
  | fuel + 1, k =>
    match i.nearestOnGrid tie k with
    | some c => ⟨c, k⟩
    | none => coarsest tie i fuel (k - 1)

end RoundingInterval

/-- The shortest decimal that rounds to the magnitude of a finite number, and of
those the nearest one. -/
def shortest (tie : Tie) (x : Binary64) : Decimal :=
  if x.significand = 0 then ⟨0, 0⟩
  else
    let i := x.roundingInterval
    -- seventeen digits always suffice
    (i.coarsest tie 18 i.order).normalize

end Binary64

end Telemetry
