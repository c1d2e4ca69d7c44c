import Telemetry.Deflate.Pack
import Telemetry.Digest.Crc32
import Telemetry.Pool

/-!
# Gzip members

A member is a header, compressed data, the check sum of the data and its
length.  Only the first member of a byte string is read.  The compressor keeps
its writers in a pool; a writer is given a new output before each use, which
ends whatever it was writing before.
-/

namespace Telemetry.Gzip

/-- The header that is written: compressed data, no flags, no time,
an unknown system. -/
def header : Bytes := [0x1F, 0x8B, 0x08, 0, 0, 0, 0, 0, 0, 0xFF]

/-- The four bytes of a number, the lowest first. -/
def littleEndian32 (n : Nat) : Bytes :=
  (List.range 4).map fun k => UInt8.ofNat (n >>> (8 * k))

/-- The number of four bytes, the lowest first. -/
def ofLittleEndian (bytes : Bytes) : Nat :=
  bytes.foldr (fun b n => b.toNat + 256 * n) 0

/-- The check sum and the length of the data, as they end a member. -/
def trailer (data : Bytes) : Bytes :=
  littleEndian32 (Crc32.sum data).toNat ++ littleEndian32 data.length

/-- Why a byte string is not a member. -/
inductive Error where
  | endOfFile
  | invalidHeader
  | longField
  | incompleteData
  | corruptData
  | checksumMismatch
  deriving DecidableEq, Repr

def Error.message : Error → String
  | .endOfFile => "unexpected end of file"
  | .invalidHeader => "invalid gzip header"
  | .longField => "gzip header field too long"
  | .incompleteData => "incomplete deflate stream"
  | .corruptData => "corrupt deflate stream"
  | .checksumMismatch => "corrupt gzip stream does not have a matching checksum"

def Error.isEnd : Error → Bool
  | .endOfFile | .incompleteData => true
  | _ => false

/-- The first `n` bytes and those after them. -/
def take (n : Nat) (bytes : Bytes) : Except Error (Bytes × Bytes) :=
  let front := bytes.take n
  if front.length < n then .error .endOfFile else .ok (front, bytes.drop n)

/-- The greatest number of bytes in a text of a header. -/
def fieldLimit : Nat := 65535

/-- The bytes after a text that ends in zero. -/
def skipText (bytes : Bytes) : Except Error Bytes :=
  let text := bytes.takeWhile (· != 0)
  if fieldLimit < text.length then .error .longField
  else
    match bytes.dropWhile (· != 0) with
    | [] => .error .endOfFile
    | _ :: rest => .ok rest

def hasFlag (flags value : UInt8) : Bool :=
  flags &&& value != 0

/-- Passes over a header with its optional parts; gives the bytes after it. -/
def skipHeader (bytes : Bytes) : Except Error Bytes := do
  let (fixed, rest) ← take 10 bytes
  let flags := fixed[3]?.getD 0
  if fixed.take 3 ≠ header.take 3 ∨ hasFlag flags 0xE0 then
    .error .invalidHeader
  else
    let rest ← if hasFlag flags 0x04 then do
        let (size, rest) ← take 2 rest
        let (_, rest) ← take (ofLittleEndian size) rest
        pure rest
      else pure rest
    let rest ← if hasFlag flags 0x08 then skipText rest else pure rest
    let rest ← if hasFlag flags 0x10 then skipText rest else pure rest
    if hasFlag flags 0x02 then
      let (check, after) ← take 2 rest
      let read := bytes.take (bytes.length - rest.length)
      if ofLittleEndian check = (Crc32.sum read).toNat % UInt16.size then
        return after
      else .error .checksumMismatch
    else return rest

def decompress (bytes : Bytes) : Except Error Bytes := do
  let rest ← skipHeader bytes
  match Deflate.inflate rest with
  | .error .incomplete => .error .incompleteData
  | .error .corrupt => .error .corruptData
  | .ok (data, rest) =>
    let (ending, _) ← take 8 rest
    if ending = trailer data then return data else .error .checksumMismatch

/-- What writes the streams of members: its new writers, how a writer takes
data, and how it is given a new output. -/
structure Encoder (ω : Type) where
  new : ω
  write : ω → Bytes → ω
  /-- Ends what is being written and starts on a new output; gives the old
  output. -/
  reset : ω → Bytes → Bytes × ω

/-- A writer: the output it was given, and the data it has taken since. -/
structure Writer where
  output : Bytes
  pending : Bytes
  deriving DecidableEq, Repr

/-- The encoder that writes what it has taken when it is given a new output. -/
def encoder : Encoder Writer where
  new := ⟨[], []⟩
  write w data := { w with pending := w.pending ++ data }
  reset w output := (w.output ++ Deflate.deflate w.pending, ⟨output, []⟩)

/-- How a compressor keeps its writers: at most sixteen, unchanged between
uses. -/
def plan {ω : Type} (e : Encoder ω) : PoolPlan ω := ⟨16, fun _ => e.new, id⟩

/-- A compressor: its pool of writers. -/
abbrev Compressor (ω : Type) := Pool ω

namespace Compressor

variable {ω : Type}

/-- A compressor without writers yet. -/
def new : Compressor ω := .empty

/-- The member of some data, and the compressor after it was written. -/
def compress (e : Encoder ω) (c : Compressor ω) (data : Bytes) :
    Bytes × Compressor ω :=
  let (item, c) := c.acquire (plan e)
  let (_, writer) := e.reset item.content header
  let (member, writer) := e.reset (e.write writer data) []
  (member ++ trailer data, c.release (plan e) { item with content := writer })

end Compressor

def compress (data : Bytes) : Bytes :=
  (Compressor.new.compress encoder data).1

end Telemetry.Gzip
