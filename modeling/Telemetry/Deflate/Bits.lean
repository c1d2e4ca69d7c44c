import Telemetry.Text.Utf8

/-!
# Bits of bytes

Compressed data is a string of bits, the lowest bit of each byte first.  The
reader takes a byte only when a bit of it is needed, so that the bytes after
the last bit are still there when it stops.
-/

namespace Telemetry.Deflate

/-- Bits that have been taken from their bytes but not read, and the
bytes that follow. -/
structure BitReader where
  held : Nat
  count : Nat
  rest : Bytes

namespace BitReader

def ofBytes (bytes : Bytes) : BitReader := ⟨0, 0, bytes⟩

/-- Takes bytes until `n` bits are held; none when the bytes run out. -/
def fill (n : Nat) (r : BitReader) : Option BitReader :=
  if n ≤ r.count then some r
  else
    match r with
    | ⟨_, _, []⟩ => none
    | ⟨held, count, b :: rest⟩ =>
      fill n ⟨held + b.toNat <<< count, count + 8, rest⟩
termination_by r.rest.length

/-- Reads a number of `n` bits, the lowest first. -/
def take (n : Nat) (r : BitReader) : Option (Nat × BitReader) :=
  (r.fill n).map fun r =>
    (r.held % 1 <<< n, ⟨r.held >>> n, r.count - n, r.rest⟩)

/-- Drops what is left of the byte that was taken last. -/
def align (r : BitReader) : BitReader :=
  ⟨r.held >>> (r.count % 8), r.count - r.count % 8, r.rest⟩

end BitReader

/-- Bytes that have been filled, the last one first, and bits that do
not fill one yet. -/
structure BitWriter where
  done : Bytes
  held : Nat
  count : Nat

namespace BitWriter

/-- No bits. -/
def empty : BitWriter := ⟨[], 0, 0⟩

def flush : Nat → BitWriter → BitWriter
  | 0, w => w
  | fuel + 1, w =>
    if w.count < 8 then w
    else flush fuel ⟨UInt8.ofNat w.held :: w.done, w.held / 256, w.count - 8⟩

/-- Writes the `n` lowest bits of a number, the lowest first. -/
def put (n value : Nat) (w : BitWriter) : BitWriter :=
  flush (w.count + n) ⟨w.done, w.held + (value % 1 <<< n) <<< w.count,
    w.count + n⟩

/-- The bytes written, the last one filled up with zeros. -/
def finish (w : BitWriter) : Bytes :=
  (if w.count = 0 then w.done else UInt8.ofNat w.held :: w.done).reverse

end BitWriter

end Telemetry.Deflate
