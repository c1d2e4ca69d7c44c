/-!
# Halts

A computation on lengths may have no result: a number is taken from a smaller
one, a number is divided by zero, or a text is cut within a character.  Then the
task that computes stops.
-/

namespace Telemetry

/-- Why a task stops. -/
inductive Halt where
  | underflow
  | divisionByZero
  /-- A text is cut before a byte at which no character begins. -/
  | withinCharacter (place : Nat)
  deriving DecidableEq, Repr

namespace Halt

def message : Halt → String
  | .underflow => "attempt to subtract with overflow"
  | .divisionByZero => "attempt to divide by zero"
  | .withinCharacter place => s!"byte index {place} is not a char boundary"

/-- The difference of two numbers, which must not be negative. -/
def sub (a b : Nat) : Except Halt Nat :=
  if b ≤ a then .ok (a - b) else .error .underflow

/-- How many parts of `b` elements `a` elements make, the last part
possibly smaller. -/
def divCeil (a b : Nat) : Except Halt Nat :=
  if b = 0 then .error .divisionByZero else .ok ((a + b - 1) / b)

end Halt

end Telemetry
