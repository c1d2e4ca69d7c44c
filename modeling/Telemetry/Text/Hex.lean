import Telemetry.Text.Utf8
import Telemetry.Text.Quoted

/-!
# Hexadecimal text of bytes

Bytes are written as pairs of lower-case digits; digits of either case are
read.
-/

namespace Telemetry.Hex

/-- The lower-case digit of a number below sixteen. -/
def digit (n : UInt8) : Char :=
  if n < 10 then Char.ofNat ('0'.toNat + n.toNat)
    else Char.ofNat ('a'.toNat + (n.toNat - 10))

/-- The digits of bytes, the higher half of each first. -/
def encodeChars (bytes : Bytes) : List Char :=
  bytes.flatMap fun b => [digit (b / 16), digit (b % 16)]

def encode (bytes : Bytes) : String :=
  String.ofList (encodeChars bytes)

def value? (b : UInt8) : Option UInt8 :=
  if 48 ≤ b ∧ b ≤ 57 then some (b - 48)
  else if 97 ≤ b ∧ b ≤ 102 then some (b - 87)
  else if 65 ≤ b ∧ b ≤ 70 then some (b - 55)
  else none

/-- Why a text is not the hexadecimal form of bytes. -/
inductive Error where
  /-- The digits do not pair up. -/
  | oddLength
  /-- The byte at a position is no digit. -/
  | invalidDigit (byte : UInt8) (position : Nat)
  deriving DecidableEq, Repr

def Error.message : Error → String
  | .oddLength => "Odd number of digits"
  | .invalidDigit byte position =>
    let character := Text.quoteChar (Char.ofNat byte.toNat)
    s!"Invalid character {character} at position {position}"

/-- Reads pairs of digits, the first of them at the given position. -/
def decodePairs (position : Nat) : Bytes → Except Error Bytes
  | [] => .ok []
  | [_] => .error .oddLength
  | a :: b :: rest =>
    match value? a, value? b with
    | none, _ => .error (.invalidDigit a position)
    | some _, none => .error (.invalidDigit b (position + 1))
    | some high, some low => do
      let bytes ← decodePairs (position + 2) rest
      return (high * 16 + low) :: bytes

/-- Reads the ASCII digits of bytes; that they pair up is checked first. -/
def decode (digits : Bytes) : Except Error Bytes :=
  if digits.length % 2 = 1 then .error .oddLength else decodePairs 0 digits

end Telemetry.Hex
