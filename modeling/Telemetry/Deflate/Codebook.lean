import Telemetry.Deflate.Bits
import Telemetry.Deflate.Alphabet

/-!
# Canonical codes

A code is given by the length of the code of every symbol.  Codes of one length
are consecutive numbers in the order of their symbols, and the first code of a
length follows the last one of the length before.
-/

namespace Telemetry.Deflate

/-- Why compressed data cannot be expanded. -/
inductive Fault where
  /-- The data ends before it is complete. -/
  | incomplete
  /-- The data breaks the format. -/
  | corrupt
  deriving DecidableEq, Repr

/-- A code for reading: how many codes there are of each length from one on, and
the symbols in the order of their codes. -/
structure Codebook where
  counts : List Nat
  symbols : Array Nat

namespace Codebook

def symbolsOf (lengths : List Nat) (length : Nat) : List Nat :=
  (lengths.zipIdx.filter fun p => p.1 == length).map Prod.snd

/-- The code with the given lengths; zero stands for a symbol without a code. -/
def ofLengths (lengths : List Nat) : Codebook :=
  let bySize :=
    (List.range maxCodeLength).map fun k => symbolsOf lengths (k + 1)
  ⟨bySize.map List.length, bySize.flatten.toArray⟩

/-- How much of the code space is used, out of `2 ^ maxCodeLength`. -/
def space (book : Codebook) : Nat :=
  book.counts.zipIdx.foldl
    (fun used p => used + p.1 <<< (maxCodeLength - 1 - p.2)) 0

/-- Whether every string of bits begins with a code, and no
code begins another. -/
def isComplete (book : Codebook) : Bool :=
  book.space == 1 <<< maxCodeLength

/-- Whether the code may be used for data: complete, or of
at most one symbol. -/
def isUsable (book : Codebook) : Bool :=
  book.isComplete || book.symbols.size ≤ 1

/-- Reads a symbol: `code` is the code read so far, `first` the first code of
the length reached, and `index` the number of symbols with shorter codes. -/
def readFrom (symbols : Array Nat) (code first index : Nat) :
    List Nat → BitReader → Except Fault (Nat × BitReader)
  | [], _ => .error .corrupt
  | count :: counts, r =>
    match r.take 1 with
    | none => .error .incomplete
    | some (bit, r) =>
      let code := 2 * code + bit
      if code < first + count then
        match symbols[index + (code - first)]? with
        | some symbol => .ok (symbol, r)
        | none => .error .corrupt
      else if counts.all (· == 0) then .error .corrupt
      else readFrom symbols code (2 * (first + count)) (index + count) counts r

def read (book : Codebook) (r : BitReader) : Except Fault (Nat × BitReader) :=
  readFrom book.symbols 0 0 0 book.counts r

end Codebook

/-- The code of a symbol: its bits as a number to be written lowest bit
first, and how many. -/
structure Code where
  bits : Nat
  length : Nat
  deriving DecidableEq, Repr, Inhabited

/-- The lowest `n` bits of a number in reverse order. -/
def reverseBits : Nat → Nat → Nat
  | 0, _ => 0
  | n + 1, value => (value % 2) <<< n + reverseBits n (value / 2)

/-- The codes of symbols, given the next free code of each length. -/
def assignCodes (next : Array Nat) : List Nat → List Code
  | [] => []
  | length :: rest =>
    let code := next.getD length 0
    ⟨reverseBits length code, length⟩ :: assignCodes
      (next.modify length (· + 1)) rest

/-- The first code of each length, from the counts of the
lengths from one on. -/
def firstCodes (code : Nat) : List Nat → List Nat
  | [] => []
  | count :: counts =>
    let after := 2 * (code + count)
    code :: firstCodes after counts

/-- The codes of all symbols for writing. -/
def codesOf (lengths : List Nat) : Array Code :=
  let first := 0 :: firstCodes 0 (Codebook.ofLengths lengths).counts
  (assignCodes first.toArray lengths).toArray

end Telemetry.Deflate
