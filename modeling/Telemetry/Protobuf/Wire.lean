import Telemetry.Text.Utf8

/-!
# The protobuf wire format

Words are written in groups of seven bits, the lowest first, and every field of
a message begins with a key that holds its number and the form of its payload.
This module writes and reads these parts and passes over fields that a message
does not know.
-/

namespace Telemetry.Protobuf

/-- The form of the payload of a field. -/
inductive WireType where
  | varint
  | sixtyFourBit
  | lengthDelimited
  | startGroup
  | endGroup
  | thirtyTwoBit
  deriving DecidableEq, Repr

def WireType.code : WireType → Nat
  | .varint => 0
  | .sixtyFourBit => 1
  | .lengthDelimited => 2
  | .startGroup => 3
  | .endGroup => 4
  | .thirtyTwoBit => 5

def WireType.ofCode? : Nat → Option WireType
  | 0 => some .varint
  | 1 => some .sixtyFourBit
  | 2 => some .lengthDelimited
  | 3 => some .startGroup
  | 4 => some .endGroup
  | 5 => some .thirtyTwoBit
  | _ => none

def WireType.name : WireType → String
  | .varint => "Varint"
  | .sixtyFourBit => "SixtyFourBit"
  | .lengthDelimited => "LengthDelimited"
  | .startGroup => "StartGroup"
  | .endGroup => "EndGroup"
  | .thirtyTwoBit => "ThirtyTwoBit"

/-- Why bytes are not a message. -/
inductive Fault where
  | underflow
  | invalidVarint
  | invalidKey (key : Nat)
  | invalidWireType (code : Nat)
  | zeroTag
  | wrongWireType (found expected : WireType)
  | notUtf8
  | lengthExceeded
  | unexpectedEndGroup
  | recursionLimit
  deriving DecidableEq, Repr

def Fault.message : Fault → String
  | .underflow => "buffer underflow"
  | .invalidVarint => "invalid varint"
  | .invalidKey key => s!"invalid key value: {key}"
  | .invalidWireType code => s!"invalid wire type value: {code}"
  | .zeroTag => "invalid tag value: 0"
  | .wrongWireType found expected =>
    s!"invalid wire type: {found.name} (expected {expected.name})"
  | .notUtf8 => "invalid string value: data is not UTF-8 encoded"
  | .lengthExceeded => "delimited length exceeded"
  | .unexpectedEndGroup => "unexpected end group tag"
  | .recursionLimit => "recursion limit reached"

/-- A fault, and the field of which message was being read, if any. -/
structure Error where
  field : Option (String × String)
  fault : Fault
  deriving DecidableEq, Repr

def Error.message (e : Error) : String :=
  let place := match e.field with
    | some (message, field) => s!"{message}.{field}: "
    | none => ""
  s!"failed to decode Protobuf message: {place}{e.fault.message}"

/-- Bytes to be read together with their number. -/
structure Input where
  bytes : Bytes
  size : Nat
  size_eq : size = bytes.length

namespace Input

def ofBytes (bytes : Bytes) : Input := ⟨bytes, bytes.length, rfl⟩

/-- Inputs of the same bytes are equal. -/
theorem ext_bytes {i j : Input} (h : i.bytes = j.bytes) : i = j := by
  cases i; cases j; simp_all

/-- The first byte and what follows it. -/
def next? (i : Input) : Option (UInt8 × Input) :=
  match h : i.bytes with
  | [] => none
  | b :: rest => some (b, ⟨rest, i.size - 1, by simp [i.size_eq, h]⟩)

/-- The first `n` bytes and what follows them, if there are as many. -/
def split? (n : Nat) (i : Input) : Option (Bytes × Input) :=
  if n ≤ i.size then
    some (i.bytes.take n, ⟨i.bytes.drop n, i.size - n, by simp [i.size_eq]⟩)
  else none

end Input

/-- The seven-bit groups of a number, at most one more than `more` of them. -/
def writeGroups : Nat → Nat → Bytes
  | 0, n => [UInt8.ofNat n]
  | more + 1, n =>
    if n < 128 then [UInt8.ofNat n]
    else UInt8.ofNat (n % 128 + 128) :: writeGroups more (n / 128)

def writeVarint (n : Nat) : Bytes :=
  writeGroups 9 n

/-- Reads at most `fuel` seven-bit groups; the last one possible may
only hold one bit. -/
def readGroups : Nat → Input → Option (Nat × Input)
  | 0, _ => none
  | fuel + 1, i => do
    let (b, i) ← i.next?
    if b < 128 then
      if fuel = 0 ∧ 2 ≤ b then none else some (b.toNat, i)
    else
      let (n, i) ← readGroups fuel i
      return (b.toNat - 128 + 128 * n, i)

def readVarint (i : Input) : Except Fault (Nat × Input) :=
  match readGroups 10 i with
  | some r => .ok r
  | none => .error .invalidVarint

/-- The number that a signed word is written as: small magnitudes of both
signs stay small. -/
def zigzag (i : Int64) : Nat :=
  let n := i.toInt
  if n < 0 then 2 * n.natAbs - 1 else 2 * n.natAbs

/-- The signed word that a number was written for. -/
def unzigzag (n : Nat) : Int64 :=
  if n % 2 = 0 then Int64.ofInt (n / 2 : Nat)
    else Int64.ofInt (-((n / 2 : Nat) : Int) - 1)

/-- The eight bytes of a word, the lowest first. -/
def writeFixed64 (w : UInt64) : Bytes :=
  (List.range 8).map fun k => UInt8.ofNat (w.toNat >>> (8 * k))

/-- The word whose bytes are given, the lowest first. -/
def readFixed64 (bytes : Bytes) : UInt64 :=
  UInt64.ofNat (bytes.foldr (fun b n => b.toNat + 256 * n) 0)

def writeKey (tag : Nat) (wire : WireType) : Bytes :=
  writeVarint (tag * 8 + wire.code)

def readKey (i : Input) : Except Fault (Nat × WireType × Input) := do
  let (key, i) ← readVarint i
  if UInt32.size ≤ key then .error (.invalidKey key)
  else
    match WireType.ofCode? (key % 8) with
    | none => .error (.invalidWireType (key % 8))
    | some wire =>
      if key / 8 = 0 then .error .zeroTag else .ok (key / 8, wire, i)

/-- Refuses a payload of another form than the expected one. -/
def expect (expected found : WireType) : Except Fault Unit :=
  if found = expected then .ok () else .error (.wrongWireType found expected)

/-- Passes over `n` bytes. -/
def drop (n : Nat) (i : Input) : Except Fault Input :=
  match i.split? n with
  | some (_, i) => .ok i
  | none => .error .underflow

/-- Passes over the payload of a field that is not a group. -/
def skipPayload (wire : WireType) (i : Input) : Except Fault Input := do
  match wire with
  | .varint =>
    let (_, i) ← readVarint i
    return i
  | .sixtyFourBit => drop 8 i
  | .thirtyTwoBit => drop 4 i
  | .lengthDelimited =>
    let (n, i) ← readVarint i
    drop n i
  | .startGroup | .endGroup => .error .unexpectedEndGroup

/-- How many groups may be open when a field inside them is passed over. -/
def groupLimit : Nat := 99

/-- Passes over the fields of open groups, given by their tags,
the innermost first. -/
def skipGroups : Nat → List Nat → Input → Except Fault Input
  | _, [], i => .ok i
  | 0, _, _ => .error .invalidVarint
  | fuel + 1, tag :: outer, i => do
    let (inner, wire, i) ← readKey i
    if wire = .endGroup then
      if inner = tag then skipGroups fuel outer i
        else .error .unexpectedEndGroup
    else if groupLimit ≤ outer.length + 1 then .error .recursionLimit
    else if wire = .startGroup then skipGroups fuel (inner :: tag :: outer) i
    else
      let i ← skipPayload wire i
      skipGroups fuel (tag :: outer) i

/-- Passes over the payload of a field. -/
def skipField (tag : Nat) (wire : WireType) (i : Input) : Except Fault Input :=
  if wire = .startGroup then skipGroups (i.size + 1) [tag] i
    else skipPayload wire i

end Telemetry.Protobuf
