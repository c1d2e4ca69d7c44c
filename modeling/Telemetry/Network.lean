import Telemetry.Text.Hex
import Telemetry.Text.Blank

/-!
# Addresses and networks

Internet addresses of both versions as numbers of 32 and 128 bits, and networks
in CIDR notation: an address with the length of the part that all members share.
Networks are written more freely than addresses: numbers may begin with zeros,
and a double colon may stand for no group at all.
-/

namespace Telemetry

/-- The versions of the Internet protocol. -/
inductive IpVersion where
  | v4
  | v6
  deriving DecidableEq, Repr

def IpVersion.bits : IpVersion → Nat
  | .v4 => 32
  | .v6 => 128

/-- An address, as a number. -/
structure Address where
  version : IpVersion
  value : Nat
  deriving DecidableEq, Repr

/-- A network: the address it is written with and the length
of the common part. -/
structure Subnet where
  address : Address
  length : Nat
  deriving DecidableEq, Repr

namespace Address

/-- What the notation of an address allows. -/
structure Notation where
  /-- Numbers of the dotted form may begin with zeros. -/
  leadingZeros : Bool
  /-- The fewest groups that a double colon stands for. -/
  gap : Nat

/-- How addresses are written. -/
def strict : Notation := ⟨false, 1⟩

/-- How the address of a network is written. -/
def lenient : Notation := ⟨true, 0⟩

/-- The value of a digit in a base up to sixteen. -/
def digit? (base : Nat) (c : Char) : Option Nat :=
  let n := c.toNat
  let d :=
    if 0x30 ≤ n ∧ n ≤ 0x39 then n - 0x30
    else if 0x61 ≤ n ∧ n ≤ 0x66 then n - 0x57
    else if 0x41 ≤ n ∧ n ≤ 0x46 then n - 0x37
    else base
  if d < base then some d else none

/-- Reads all the digits there are as a number below `bound`; there may
be `most` of them. -/
def readNumber? (base most bound : Nat) (cs : List Char) :
    Option (Nat × List Char) :=
  let digits := cs.takeWhile fun c => (digit? base c).isSome
  let value := digits.foldl (fun n c => n * base + (digit? base c).getD 0) 0
  if digits.isEmpty ∨ most < digits.length ∨ bound ≤ value then none
  else some (value, cs.drop digits.length)

def readOctet? (style : Notation) (cs : List Char) :
    Option (Nat × List Char) := do
  let (value, rest) ← readNumber? 10 3 256 cs
  let length := cs.length - rest.length
  if cs.head? = some '0' ∧ 1 < length ∧ !style.leadingZeros then none
  else some (value, rest)

def readChar? (c : Char) : List Char → Option (List Char)
  | [] => none
  | d :: rest => if c = d then some rest else none

def readDotted? (style : Notation) (cs : List Char) :
    Option (Nat × List Char) := do
  let (a, cs) ← readOctet? style cs
  let (b, cs) ← readOctet? style (← readChar? '.' cs)
  let (c, cs) ← readOctet? style (← readChar? '.' cs)
  let (d, cs) ← readOctet? style (← readChar? '.' cs)
  some (((a * 256 + b) * 256 + c) * 256 + d, cs)

/-- Reads groups between colons, at most `room` of them; two may be written in
the dotted form, which ends the groups.  The groups, whether they ended so,
and what follows. -/
def readGroups (style : Notation) :
    Nat → Bool → List Char → List Nat × Bool × List Char
  | 0, _, cs => ([], false, cs)
  | room + 1, first, cs =>
    match if first then some cs else readChar? ':' cs with
    | none => ([], false, cs)
    | some after =>
      match if 0 < room then readDotted? style after else none with
      | some (value, rest) => ([value / 65536, value % 65536], true, rest)
      | none =>
        match readNumber? 16 4 65536 after with
        | none => ([], false, cs)
        | some (group, rest) =>
          let (groups, dotted, rest) := readGroups style room false rest
          (group :: groups, dotted, rest)

def groupCount : Nat := 8

/-- The number that groups make, the missing ones standing between them. -/
def ofGroups (front back : List Nat) : Nat :=
  let zeros := List.replicate (groupCount - front.length - back.length) 0
  (front ++ zeros ++ back).foldl (fun n g => n * 65536 + g) 0

def readGrouped? (style : Notation) (cs : List Char) :
    Option (Nat × List Char) :=
  let (front, dotted, cs) := readGroups style groupCount true cs
  if front.length = groupCount then some (ofGroups front [], cs)
  else if dotted then none
  else do
    let cs ← readChar? ':' cs
    let cs ← readChar? ':' cs
    let (back, _, cs) :=
      readGroups style (groupCount - front.length - style.gap) true cs
    some (ofGroups front back, cs)

/-- Reads an address of either version. -/
def read? (style : Notation) (cs : List Char) : Option (Address × List Char) :=
  match readDotted? style cs with
  | some (value, rest) => some (⟨.v4, value⟩, rest)
  | none => (readGrouped? style cs).map fun r => (⟨.v6, r.1⟩, r.2)

def ofText? (s : String) : Option Address :=
  match read? strict s.toList with
  | some (address, []) => some address
  | _ => none

def dottedText (value : Nat) : String :=
  let octet (i : Nat) := toString (value >>> (8 * i) % 256)
  ".".intercalate [octet 3, octet 2, octet 1, octet 0]

def hexText (n : Nat) : String := String.ofList (Nat.toDigits 16 n)

def groups (value : Nat) : List Nat :=
  (List.range groupCount).map fun i =>
    value >>> (16 * (groupCount - 1 - i)) % 65536

/-- The place and the length of the longest run of zeros, the first of several;
groups are counted from `start`, the run before them began at `begun`. -/
def longestRun (best : Nat × Nat) : Nat → Nat → List Nat → Nat × Nat
  | _, _, [] => best
  | start, begun, g :: rest =>
    if g = 0 then
      let run := (begun, start + 1 - begun)
      longestRun (if best.2 < run.2 then run else best) (start + 1) begun rest
    else longestRun best (start + 1) (start + 1) rest

def groupsText (gs : List Nat) : String := ":".intercalate (gs.map hexText)

/-- The form of an address with groups: the longest run of at least two zeros
becomes a double colon, and an address that holds a dotted one shows it. -/
def groupedText (value : Nat) : String :=
  if value >>> 32 = 0xFFFF then s!"::ffff:{dottedText (value % UInt32.size)}"
  else
    let gs := groups value
    let (start, length) := longestRun (0, 0) 0 0 gs
    if length < 2 then groupsText gs
    else
      s!"{groupsText (gs.take start)}::{groupsText (gs.drop (start + length))}"

def toText (a : Address) : String :=
  match a.version with
  | .v4 => dottedText a.value
  | .v6 => groupedText a.value

end Address

namespace Subnet

def ofText? (s : String) : Option Subnet := do
  let (address, rest) ← Address.read? Address.lenient s.toList
  let rest ← Address.readChar? '/' rest
  let digits := match address.version with
    | .v4 => 2
    | .v6 => 3
  let (length, rest) ← Address.readNumber? 10 digits
    (address.version.bits + 1) rest
  if rest = [] then some ⟨address, length⟩ else none

def toText (n : Subnet) : String := s!"{n.address.toText}/{n.length}"

/-- The part of an address that the members of a network of a
given length share. -/
def common (length : Nat) (a : Address) : Nat :=
  a.value >>> (a.version.bits - length)

def contains (n : Subnet) (a : Address) : Bool :=
  a.version == n.address.version &&
    common n.length a == common n.length n.address

end Subnet

end Telemetry
