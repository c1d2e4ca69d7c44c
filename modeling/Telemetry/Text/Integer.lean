/-!
# Integers in text

Reading whole texts as bounded integers: a sign where one is allowed, at least
one decimal digit, and a value within the bounds.
-/

namespace Telemetry.Text

def decimalValue? (cs : List Char) : Option Nat :=
  if cs ≠ [] ∧ cs.all Char.isDigit then
    some (cs.foldl (fun n c => n * 10 + (c.toNat - '0'.toNat)) 0)
  else none

/-- Reads a natural number below `bound`; a plus sign may stand before it. -/
def readNat? (bound : Nat) (s : String) : Option Nat :=
  let digits := match s.toList with
    | '+' :: cs => cs
    | cs => cs
  (decimalValue? digits).filter (· < bound)

/-- An integer as one of 64 bits, if it is in their range. -/
def int64OfInt? (i : Int) : Option Int64 :=
  if Int64.minValue.toInt ≤ i ∧ i ≤ Int64.maxValue.toInt then
    some (Int64.ofInt i) else none

/-- Reads a signed integer of 64 bits; a plus or minus sign
may stand before it. -/
def readInt64? (s : String) : Option Int64 :=
  let value : Option Int := match s.toList with
    | '-' :: cs => (decimalValue? cs).map fun n => -(n : Int)
    | '+' :: cs => (decimalValue? cs).map Int.ofNat
    | cs => (decimalValue? cs).map Int.ofNat
  value.bind int64OfInt?

def int64Text (i : Int64) : String :=
  toString i.toInt

end Telemetry.Text
