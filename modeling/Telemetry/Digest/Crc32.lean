import Telemetry.Text.Utf8

/-!
# CRC-32

The check sum of gzip members, with the reflected polynomial `0xEDB88320`.
-/

namespace Telemetry.Crc32

/-- One division step of the reflected polynomial. -/
def shift (c : UInt32) : UInt32 :=
  if c &&& 1 = 1 then (c >>> 1) ^^^ 0xEDB88320 else c >>> 1

/-- The remainder of a byte that stands alone. -/
def entry (n : Nat) : UInt32 :=
  Nat.repeat shift 8 (UInt32.ofNat n)

/-- The remainders of all bytes. -/
def table : Array UInt32 :=
  (Array.range 256).map entry

/-- Takes one byte into the running remainder. -/
def step (c : UInt32) (b : UInt8) : UInt32 :=
  table.getD ((c ^^^ b.toUInt32) &&& 0xFF).toNat 0 ^^^ (c >>> 8)

def sum (bytes : Bytes) : UInt32 :=
  ~~~ bytes.foldl step 0xFFFFFFFF

end Telemetry.Crc32
