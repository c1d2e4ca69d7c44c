import Telemetry.Text.Utf8

/-!
# Distinguished encoding of key structures

An element is a tag, a length in its shortest form and contents of that length.
Keys and certificates are elements within elements.
-/

namespace Telemetry.Der

def integerTag : UInt8 := 0x02

def bitStringTag : UInt8 := 0x03

def octetStringTag : UInt8 := 0x04

def nullTag : UInt8 := 0x05

def identifierTag : UInt8 := 0x06

def sequenceTag : UInt8 := 0x30

/-- An element. -/
structure Element where
  tag : UInt8
  contents : Bytes
  deriving DecidableEq, Repr

/-- The number that bytes stand for, the highest first. -/
def natural (bytes : Bytes) : Nat :=
  bytes.foldl (fun n b => n * 256 + b.toNat) 0

/-- Reads a length: one byte below 128, or up to four bytes whose number is
given, without leading zeros. -/
def length? : Bytes → Option (Nat × Bytes)
  | [] => none
  | b :: rest =>
    if b < 128 then some (b.toNat, rest)
    else
      let count := b.toNat - 128
      let digits := rest.take count
      let n := natural digits
      if 1 ≤ count ∧ count ≤ 4 ∧ digits.length = count ∧ digits.head? ≠ some 0 ∧
          128 ≤ n then
        some (n, rest.drop count)
      else none

/-- Reads an element and gives what follows it. -/
def element? : Bytes → Option (Element × Bytes)
  | [] => none
  | tag :: rest => do
    let (n, rest) ← length? rest
    let contents := rest.take n
    if contents.length = n then some (⟨tag, contents⟩, rest.drop n) else none

def tagged? (tag : UInt8) (bytes : Bytes) : Option (Bytes × Bytes) := do
  let (e, rest) ← element? bytes
  if e.tag = tag then some (e.contents, rest) else none

/-- The contents of the only element with the given tag that the bytes are. -/
def only? (tag : UInt8) (bytes : Bytes) : Option Bytes := do
  let (contents, rest) ← tagged? tag bytes
  if rest = [] then some contents else none

/-- The value of an integer that is not negative and has no superfluous zero. -/
def unsigned? : Bytes → Option Nat
  | [] => none
  | [b] => if b < 128 then some b.toNat else none
  | b :: c :: rest =>
    if b ≥ 128 ∨ (b = 0 ∧ c < 128) then none
      else some (natural (b :: c :: rest))

/-- Reads an integer that is not negative. -/
def readUnsigned? (bytes : Bytes) : Option (Nat × Bytes) := do
  let (contents, rest) ← tagged? integerTag bytes
  let n ← unsigned? contents
  some (n, rest)

/-- Reads `count` integers that are not negative. -/
def readUnsignedList? : Nat → Bytes → Option (List Nat × Bytes)
  | 0, bytes => some ([], bytes)
  | count + 1, bytes => do
    let (n, bytes) ← readUnsigned? bytes
    let (ns, bytes) ← readUnsignedList? count bytes
    some (n :: ns, bytes)

def wholeBits? : Bytes → Option Bytes
  | 0 :: bytes => some bytes
  | _ => none

end Telemetry.Der
