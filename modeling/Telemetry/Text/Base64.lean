import Telemetry.Text.Utf8

/-!
# Base64

Reading the canonical base64 form of bytes: groups of four characters, padding
only at the end, and no bits set that the padding cuts off.
-/

namespace Telemetry.Base64

def value? (b : UInt8) : Option Nat :=
  if 65 ≤ b ∧ b ≤ 90 then some (b.toNat - 65)
  else if 97 ≤ b ∧ b ≤ 122 then some (b.toNat - 71)
  else if 48 ≤ b ∧ b ≤ 57 then some (b.toNat + 4)
  else if b = 43 then some 62
  else if b = 47 then some 63
  else none

def pad : UInt8 := 61

/-- Reads groups of four characters; the last group may be padded. -/
def decode? : Bytes → Option Bytes
  | [] => some []
  | [a, b, c, d] => do
    let a ← value? a
    let b ← value? b
    if c = pad then
      if d = pad ∧ b % 16 = 0 then some [UInt8.ofNat (a * 4 + b / 16)] else none
    else
      let c ← value? c
      if d = pad then
        if c % 4 = 0 then
          some [UInt8.ofNat (a * 4 + b / 16), UInt8.ofNat (b * 16 + c / 4)]
        else none
      else
        let d ← value? d
        some [UInt8.ofNat (a * 4 + b / 16), UInt8.ofNat (b * 16 + c / 4),
          UInt8.ofNat (c * 64 + d)]
  | a :: b :: c :: d :: rest => do
    let a ← value? a
    let b ← value? b
    let c ← value? c
    let d ← value? d
    let bytes ← decode? rest
    some (UInt8.ofNat (a * 4 + b / 16) :: UInt8.ofNat (b * 16 + c / 4)
      :: UInt8.ofNat (c * 64 + d) :: bytes)
  | _ => none

end Telemetry.Base64
