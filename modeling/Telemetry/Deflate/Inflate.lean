import Telemetry.Deflate.Codebook

/-!
# Expanding compressed data

The data comes in blocks: stored as it is, or as tokens under a code that is
fixed or written at the head of the block.  The bytes before the data are
zeros as far as copies reach them.
-/

namespace Telemetry.Deflate

/-- Reads bits that must be there. -/
def need (n : Nat) (r : BitReader) : Except Fault (Nat × BitReader) :=
  match r.take n with
  | some p => .ok p
  | none => .error .incomplete

/-- Appends bytes that lie at a distance before the end. -/
def copyBack (distance : Nat) : Nat → Array UInt8 → Array UInt8
  | 0, out => out
  | n + 1, out =>
    let b := if distance ≤ out.size then out.getD (out.size - distance) 0 else 0
    copyBack distance n (out.push b)

/-- The value of a symbol in a list of ranges, with its extra bits read. -/
def readValue (ranges : List Range) (symbol : Nat) (r : BitReader) :
    Except Fault (Nat × BitReader) :=
  match ranges[symbol]? with
  | none => .error .corrupt
  | some range => do
    let (extra, r) ← need range.extra r
    return (range.base + extra, r)

/-- Reads the tokens of a block up to its end. -/
def readTokens (literals distances : Codebook) :
    Nat → Array UInt8 → BitReader → Except Fault (Array UInt8 × BitReader)
  | 0, _, _ => .error .incomplete
  | fuel + 1, out, r => do
    let (symbol, r) ← literals.read r
    if symbol < endOfBlock then
      readTokens literals distances fuel (out.push (UInt8.ofNat symbol)) r
    else if symbol = endOfBlock then return (out, r)
    else
      let (length, r) ← readValue lengthRanges (symbol - endOfBlock - 1) r
      let (symbol, r) ← distances.read r
      let (distance, r) ← readValue distanceRanges symbol r
      readTokens literals distances fuel (copyBack distance length out) r

def readStored (out : Array UInt8) (r : BitReader) :
    Except Fault (Array UInt8 × BitReader) := do
  let (size, r) ← need 16 r.align
  let (check, r) ← need 16 r
  if size + check ≠ storedLimit then .error .corrupt
  else
    let bytes := r.rest.take size
    if bytes.length < size then .error .incomplete
    else return (bytes.foldl Array.push out,
      ⟨r.held, r.count, r.rest.drop size⟩)

def readTriples : Nat → BitReader → Except Fault (List Nat × BitReader)
  | 0, r => .ok ([], r)
  | n + 1, r => do
    let (value, r) ← need 3 r
    let (values, r) ← readTriples n r
    return (value :: values, r)

/-- Reads code lengths, of which `done` holds those read before, the last one
first: a length as it is, a repetition of the last one, or a run of zeros. -/
def readLengths (book : Codebook) (total : Nat) :
    Nat → List Nat → BitReader → Except Fault (List Nat × BitReader)
  | 0, done, r =>
    if done.length = total then .ok (done.reverse, r) else .error .corrupt
  | fuel + 1, done, r => do
    if done.length = total then return (done.reverse, r)
    else if total < done.length then .error .corrupt
    else
      let (symbol, r) ← book.read r
      if symbol < 16 then readLengths book total fuel (symbol :: done) r
      else if symbol = 16 then
        match done with
        | [] => .error .corrupt
        | last :: _ =>
          let (n, r) ← need 2 r
          readLengths book total fuel (List.replicate (n + 3) last ++ done) r
      else
        let (n, r) ← if symbol = 17 then need 3 r else need 7 r
        let zeros := if symbol = 17 then n + 3 else n + 11
        readLengths book total fuel (List.replicate zeros 0 ++ done) r

/-- The lengths of the code for code lengths, from the order in which
they are written. -/
def arrangeLengths (written : List Nat) : List Nat :=
  (List.range codeLengthOrder.length).map fun symbol =>
    match codeLengthOrder.findIdx? (· == symbol) with
    | some place => written[place]?.getD 0
    | none => 0

def readCodes (r : BitReader) :
    Except Fault (Codebook × Codebook × BitReader) := do
  let (literalCount, r) ← need 5 r
  let (distanceCount, r) ← need 5 r
  let (lengthCount, r) ← need 4 r
  let literalCount := literalCount + 257
  let distanceCount := distanceCount + 1
  if literalLimit < literalCount ∨ distanceLimit < distanceCount then
    .error .corrupt
  else
    let (written, r) ← readTriples (lengthCount + 4) r
    let book := Codebook.ofLengths (arrangeLengths written)
    if !book.isComplete then .error .corrupt
    else
      let total := literalCount + distanceCount
      let (lengths, r) ← readLengths book total (total + 1) [] r
      let literals := Codebook.ofLengths (lengths.take literalCount)
      let distances := Codebook.ofLengths (lengths.drop literalCount)
      if literals.isUsable && distances.isUsable then
        return (literals, distances, r)
      else .error .corrupt

def fixedLiterals : Codebook := .ofLengths fixedLiteralLengths

def fixedDistances : Codebook := .ofLengths fixedDistanceLengths

/-- Reads one block; says whether it was the last one. -/
def readBlock (fuel : Nat) (out : Array UInt8) (r : BitReader) :
    Except Fault (Bool × Array UInt8 × BitReader) := do
  let (final, r) ← need 1 r
  let (form, r) ← need 2 r
  if form = 0 then
    let (out, r) ← readStored out r
    return (final == 1, out, r)
  else if form = 1 then
    let (out, r) ← readTokens fixedLiterals fixedDistances fuel out r
    return (final == 1, out, r)
  else if form = 2 then
    let (literals, distances, r) ← readCodes r
    let (out, r) ← readTokens literals distances fuel out r
    return (final == 1, out, r)
  else .error .corrupt

/-- Reads blocks up to the last one. -/
def readBlocks (tokens : Nat) :
    Nat → Array UInt8 → BitReader → Except Fault (Array UInt8 × BitReader)
  | 0, _, _ => .error .incomplete
  | fuel + 1, out, r => do
    let (final, out, r) ← readBlock tokens out r
    if final then return (out, r) else readBlocks tokens fuel out r

/-- The data that was compressed, and the bytes after it. -/
def inflate (bytes : Bytes) : Except Fault (Bytes × Bytes) := do
  -- a token takes at least a bit, and so does a block
  let fuel := 8 * bytes.length + 1
  let (out, r) ← readBlocks fuel fuel #[] (.ofBytes bytes)
  return (out.toList, r.rest)

end Telemetry.Deflate
