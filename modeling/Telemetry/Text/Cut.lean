import Telemetry.Halt
import Telemetry.Text.Utf8

/-!
# Cutting a text at a byte

The bytes of a text may be cut where a character begins and where the text ends.
A byte tells whether a character begins with it.
-/

namespace Telemetry.Utf8

/-- Whether a character begins with a byte, which is one of a text. -/
def begins (b : UInt8) : Bool := b < 0x80 || 0xC0 ≤ b

/-- Whether the bytes of a text may be cut at a place. -/
def isBoundary (bytes : Bytes) (place : Nat) : Bool :=
  place == 0 ||
    match bytes[place]? with
    | some b => begins b
    | none => place == bytes.length

/-- The last place to cut that is not behind the given one. -/
def boundaryUpTo (bytes : Bytes) : Nat → Nat
  | 0 => 0
  | place + 1 =>
    if isBoundary bytes (place + 1) then place + 1 else boundaryUpTo bytes place

/-- The beginning of a text, up to a place. -/
def cut (s : String) (place : Nat) : Except Halt String :=
  if isBoundary (encode s) place then
    match decode? ((encode s).take place) with
    | some front => .ok front
    | none => .error (.withinCharacter place)
  else .error (.withinCharacter place)

end Telemetry.Utf8
