import Telemetry.Text.Utf8
import Telemetry.Deflate.Alphabet

/-!
# Finding repetitions

Data is cut into tokens from left to right.  Where the next three bytes have
occurred before within the window, the longest of the most recent occurrences
is copied; elsewhere a byte stands for itself.
-/

namespace Telemetry.Deflate

/-- The earlier places of triples of bytes: for each hash the last place plus
one, and for each place the one before it with the same hash. -/
structure Occurrences where
  last : Array Nat
  previous : Array Nat

namespace Occurrences

def hashes : Nat := 32768

/-- No place yet. -/
def none : Occurrences := ⟨Array.replicate hashes 0, #[]⟩

def hash (data : Array UInt8) (place : Nat) : Nat :=
  let a := (data.getD place 0).toNat
  let b := (data.getD (place + 1) 0).toNat
  let c := (data.getD (place + 2) 0).toNat
  (a * 1024 + b * 32 + c) % hashes

/-- Adds the next place; places are added in order. -/
def add (o : Occurrences) (data : Array UInt8) (place : Nat) : Occurrences :=
  let h := hash data place
  ⟨o.last.set! h (place + 1), o.previous.push (o.last.getD h 0)⟩

/-- Adds `n` places from one on. -/
def addAll (o : Occurrences) (data : Array UInt8) : Nat → Nat → Occurrences
  | 0, _ => o
  | n + 1, place => addAll (o.add data place) data n (place + 1)

end Occurrences

def longestCopy : Nat := 258

def shortestCopy : Nat := 3

/-- How many earlier places are tried for a copy. -/
def tries : Nat := 64

/-- How many bytes agree from two places on, at most `n`. -/
def agreement (data : Array UInt8) (i j : Nat) : Nat → Nat → Nat
  | 0, found => found
  | n + 1, found =>
    if data.getD (i + found) 0 == data.getD (j + found) 0 then
      agreement data i j n (found + 1)
    else found

/-- The longest copy for a place among earlier ones, as its
length and distance. -/
def bestCopy (data : Array UInt8) (o : Occurrences) (place : Nat) :
    Nat → Nat → Nat × Nat → Nat × Nat
  | 0, _, best => best
  | fuel + 1, candidate, best =>
    if candidate = 0 ∨ place + 1 - candidate > windowSize then best
    else
      let earlier := candidate - 1
      let length :=
        agreement data earlier place (min longestCopy (data.size - place)) 0
      let best := if best.1 < length then (length, place - earlier) else best
      bestCopy data o place fuel (o.previous.getD earlier 0) best

/-- The tokens of the data from a place on, appended to those before. -/
def tokensFrom (data : Array UInt8) :
    Nat → Nat → Occurrences → Array Token → Array Token
  | 0, _, _, acc => acc
  | fuel + 1, place, o, acc =>
    if h : place < data.size then
      let (length, distance) :=
        bestCopy data o place tries
          (o.last.getD (Occurrences.hash data place) 0) (0, 0)
      if shortestCopy ≤ length then
        tokensFrom data fuel (place + length) (o.addAll data length place)
          (acc.push (.copy length distance))
      else
        tokensFrom data fuel (place + 1) (o.add data place)
          (acc.push (.literal data[place]))
    else acc

def tokens (bytes : Bytes) : Array Token :=
  let data := bytes.toArray
  tokensFrom data data.size 0 .none #[]

end Telemetry.Deflate
