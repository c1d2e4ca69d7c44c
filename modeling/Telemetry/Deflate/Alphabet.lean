/-!
# The alphabets of compressed data

Compressed data is a sequence of literals and of copies from the last 32 KiB.
The length and the distance of a copy are each written as a symbol that selects
a range and extra bits that select a value in it.
-/

namespace Telemetry.Deflate

/-- A range of values: the least one and the number of extra bits. -/
structure Range where
  base : Nat
  extra : Nat
  deriving DecidableEq, Repr

def endOfBlock : Nat := 256

/-- The ranges of the length symbols, the first of which is 257. -/
def lengthRanges : List Range :=
  [⟨3, 0⟩, ⟨4, 0⟩, ⟨5, 0⟩, ⟨6, 0⟩, ⟨7, 0⟩, ⟨8, 0⟩, ⟨9, 0⟩, ⟨10, 0⟩, ⟨11, 1⟩,
    ⟨13, 1⟩, ⟨15, 1⟩, ⟨17, 1⟩, ⟨19, 2⟩, ⟨23, 2⟩, ⟨27, 2⟩, ⟨31, 2⟩, ⟨35, 3⟩,
    ⟨43, 3⟩, ⟨51, 3⟩, ⟨59, 3⟩, ⟨67, 4⟩, ⟨83, 4⟩, ⟨99, 4⟩, ⟨115, 4⟩, ⟨131, 5⟩,
    ⟨163, 5⟩, ⟨195, 5⟩, ⟨227, 5⟩, ⟨258, 0⟩]

def distanceRanges : List Range :=
  [⟨1, 0⟩, ⟨2, 0⟩, ⟨3, 0⟩, ⟨4, 0⟩, ⟨5, 1⟩, ⟨7, 1⟩, ⟨9, 2⟩, ⟨13, 2⟩, ⟨17, 3⟩,
    ⟨25, 3⟩, ⟨33, 4⟩, ⟨49, 4⟩, ⟨65, 5⟩, ⟨97, 5⟩, ⟨129, 6⟩, ⟨193, 6⟩, ⟨257, 7⟩,
    ⟨385, 7⟩, ⟨513, 8⟩, ⟨769, 8⟩, ⟨1025, 9⟩, ⟨1537, 9⟩, ⟨2049, 10⟩, ⟨3073, 10⟩,
    ⟨4097, 11⟩, ⟨6145, 11⟩, ⟨8193, 12⟩, ⟨12289, 12⟩, ⟨16385, 13⟩, ⟨24577, 13⟩]

/-- The greatest number of literal and length symbols that a
block may declare. -/
def literalLimit : Nat := 286

/-- The greatest number of distance symbols that a block may declare. -/
def distanceLimit : Nat := 30

/-- The code lengths of the fixed literal and length code. -/
def fixedLiteralLengths : List Nat :=
  List.replicate 144 8 ++ List.replicate 112 9 ++ List.replicate 24 7 ++
    List.replicate 8 8

def fixedDistanceLengths : List Nat :=
  List.replicate 32 5

/-- The order in which the lengths of the code for code lengths are written. -/
def codeLengthOrder : List Nat :=
  [16, 17, 18, 0, 8, 7, 9, 6, 10, 5, 11, 4, 12, 3, 13, 2, 14, 1, 15]

def maxCodeLength : Nat := 15

/-- The greatest distance of a copy. -/
def windowSize : Nat := 32768

/-- The greatest number of bytes in a stored block. -/
def storedLimit : Nat := 65535

/-- A part of the data: a byte, or a copy of bytes that came before. -/
inductive Token where
  | literal (byte : UInt8)
  | copy (length distance : Nat)
  deriving DecidableEq, Repr

/-- The symbol and the extra value of a number in a list of ranges, the first of
which has the given symbol. -/
def classify (value : Nat) : Nat → List Range → Nat × Nat × Nat
  | symbol, [] => (symbol, 0, 0)
  | symbol, [r] => (symbol, r.extra, value - r.base)
  | symbol, r :: next :: rest =>
    if value < next.base then (symbol, r.extra, value - r.base)
    else classify value (symbol + 1) (next :: rest)

end Telemetry.Deflate
