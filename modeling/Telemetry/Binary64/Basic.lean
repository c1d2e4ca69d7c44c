/-!
# Binary64 numbers

A gauge holds a binary64 number.  The number is kept as its 64 interchange
bits, so that zeros of both signs and every NaN stay apart, and everything that
is computed with it is exact arithmetic on natural numbers followed by one
rounding to nearest, ties to even.
-/

namespace Telemetry

/-- A binary64 number, held as its interchange bits. -/
structure Binary64 where
  bits : UInt64
  deriving DecidableEq, Repr

namespace Binary64

def signBit : Nat := 0x8000000000000000

/-- The lowest bit of the exponent field, read as a number. -/
def exponentUnit : Nat := 0x10000000000000

def infinityPattern : Nat := 2047 * exponentUnit

/-- Joins a sign with a pattern of the 63 lower bits. -/
def ofPattern (negative : Bool) (pattern : Nat) : Binary64 :=
  ⟨UInt64.ofNat (pattern + if negative then signBit else 0)⟩

/-- The 63 bits below the sign, read as a number. -/
def pattern (x : Binary64) : Nat :=
  x.bits.toNat % signBit

def isNegative (x : Binary64) : Bool :=
  signBit ≤ x.bits.toNat

/-- Whether the bits stand for no number at all. -/
def isNaN (x : Binary64) : Bool :=
  infinityPattern < x.pattern

/-- Whether the number is neither infinite nor NaN. -/
def isFinite (x : Binary64) : Bool :=
  x.pattern < infinityPattern

def exponentField (x : Binary64) : Nat :=
  x.pattern / exponentUnit

/-- The integer significand: a finite number is `significand * 2
^ (scale - 1074)`. -/
def significand (x : Binary64) : Nat :=
  if x.exponentField = 0 then x.pattern
    else x.pattern % exponentUnit + exponentUnit

/-- How far the unit of the significand lies above the least positive number. -/
def scale (x : Binary64) : Nat :=
  x.exponentField - 1

def zero : Binary64 := ⟨0⟩

def infinity (negative : Bool) : Binary64 :=
  ofPattern negative infinityPattern

/-- The quiet NaN that a text `NaN` stands for. -/
def nan : Binary64 :=
  ofPattern false (infinityPattern + exponentUnit / 2)

def negate (x : Binary64) : Binary64 :=
  ofPattern (!x.isNegative) x.pattern

/-- How many times the least positive number goes into one. -/
def unitsPerOne : Nat := 1 <<< 1074

/-- The quotient rounded to the nearest integer, a tie to the even one. -/
def roundDiv (num den : Nat) : Nat :=
  let q := num / den
  let r := num % den
  if den < 2 * r || (2 * r == den && q % 2 == 1) then q + 1 else q

/-- The pattern of the binary64 number nearest to `num / den`: the significand
has 53 bits unless the number is below the normal range, and a carry runs into
the exponent field. -/
def nearestPattern (num den : Nat) : Nat :=
  if num = 0 ∨ den = 0 then 0 else
  -- `lift` makes the integer part of `num * 2 ^ 1074 / (den * 2 ^ lift)` 53 or
  -- 54 bits long
  let lift := num.log2 + 1074 - (den.log2 + 53)
  let top := num * unitsPerOne
  let lift := if 2 * exponentUnit ≤ top / (den <<< lift) then lift + 1 else lift
  min infinityPattern (lift * exponentUnit + roundDiv top (den <<< lift))

/-- The binary64 number nearest to a quotient of natural numbers. -/
def ofRatio (negative : Bool) (num den : Nat) : Binary64 :=
  ofPattern negative (nearestPattern num den)

def ofNat (n : Nat) : Binary64 :=
  ofRatio false n 1

/-- The binary64 number nearest to an integer; zero is positive. -/
def ofInt (i : Int) : Binary64 :=
  ofRatio (i < 0) i.natAbs 1

/-- The magnitude of a finite number in units of `2 ^ -1074`. -/
def units (x : Binary64) : Nat :=
  x.significand <<< x.scale

/-- The value of a finite number in units of `2 ^ -1074`. -/
def signedUnits (x : Binary64) : Int :=
  if x.isNegative then -(x.units : Int) else x.units

/-- The sum of two finite numbers, rounded once; a sum of zero is positive. -/
def add (x y : Binary64) : Binary64 :=
  let sum := x.signedUnits + y.signedUnits
  ofRatio (sum < 0) sum.natAbs unitsPerOne

def mul (x y : Binary64) : Binary64 :=
  ofRatio (x.isNegative != y.isNegative) (x.units * y.units)
    (unitsPerOne * unitsPerOne)

/-- The quotient of two finite numbers, the second not zero, rounded once. -/
def div (x y : Binary64) : Binary64 :=
  ofRatio (x.isNegative != y.isNegative) x.units y.units

end Binary64

end Telemetry
