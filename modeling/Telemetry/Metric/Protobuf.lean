import Telemetry.Metric.Basic
import Telemetry.Protobuf.Wire

/-!
# Metrics as protobuf messages

A batch travels as messages one after the other, each preceded by its length.
An empty id and the unknown kind are left out; the value and the increment are
written exactly when they are present.  A message may hold its fields in any
order and more than once, the last one counting, and fields of other numbers.
-/

namespace Telemetry

open Protobuf

def Kind.code : Kind → Nat
  | .unknown => 0
  | .gauge => 1
  | .counter => 2

/-- The kind with a number; any number but two means the unknown kind. -/
def Kind.ofCode (n : Nat) : Kind :=
  if n = 1 then .gauge else if n = 2 then .counter else .unknown

namespace Metric

/-- The fields of a message. -/
inductive Field where
  | id
  | kind
  | value
  | delta
  deriving DecidableEq, Repr

def Field.tag : Field → Nat
  | .id => 1
  | .kind => 2
  | .value => 3
  | .delta => 4

def Field.ofTag? : Nat → Option Field
  | 1 => some .id
  | 2 => some .kind
  | 3 => some .value
  | 4 => some .delta
  | _ => none

def Field.wire : Field → WireType
  | .id => .lengthDelimited
  | .kind => .varint
  | .value => .sixtyFourBit
  | .delta => .varint

def Field.name : Field → String
  | .id => "id"
  | .kind => "metric_type"
  | .value => "value"
  | .delta => "delta"

def messageName : String := "MetricProto"

def Field.key (f : Field) : Bytes :=
  writeKey f.tag f.wire

def messageBody (m : Metric) : Bytes :=
  let id := Utf8.encode m.id
  (if id = [] then [] else Field.id.key ++ writeVarint id.length ++ id)
    ++ (if m.kind.code = 0 then []
      else Field.kind.key ++ writeVarint m.kind.code) ++ (match m.value with
      | none => []
      | some v => Field.value.key ++ writeFixed64 v.bits)
    ++ (match m.delta with
      | none => []
      | some d => Field.delta.key ++ writeVarint (zigzag d))

/-- The message of a metric with its length before it. -/
def toMessage (m : Metric) : Bytes :=
  let body := m.messageBody
  writeVarint body.length ++ body

/-- The metric that a message without fields stands for. -/
def blank : Metric := ⟨"", .unknown, none, none⟩

def readPayload (f : Field) (m : Metric) (i : Input) :
    Except Fault (Metric × Input) :=
  match f with
  | .id => do
    let (n, i) ← readVarint i
    match i.split? n with
    | none => .error .underflow
    | some (bytes, i) =>
      match Utf8.decode? bytes with
      | none => .error .notUtf8
      | some id => return ({ m with id }, i)
  | .kind => do
    let (n, i) ← readVarint i
    return ({ m with kind := .ofCode (n % UInt32.size) }, i)
  | .value =>
    match i.split? 8 with
    | none => .error .underflow
    | some (bytes, i) => .ok ({ m with value := some ⟨readFixed64 bytes⟩ }, i)
  | .delta => do
    let (n, i) ← readVarint i
    return ({ m with delta := some (unzigzag n) }, i)

def readField (m : Metric) (i : Input) :
    Except Protobuf.Error (Metric × Input) := do
  let (tag, wire, i) ← (readKey i).mapError (Protobuf.Error.mk none)
  match Field.ofTag? tag with
  | some f =>
    (do expect f.wire wire
        readPayload f m i).mapError
      (Protobuf.Error.mk (some (messageName, f.name)))
  | none =>
    let i ← (skipField tag wire i).mapError (Protobuf.Error.mk none)
    return (m, i)

/-- Reads fields until at most `left` bytes are left. -/
def readFields (left : Nat) :
    Nat → Metric → Input → Except Protobuf.Error (Metric × Input)
  | 0, m, i => .ok (m, i)
  | fuel + 1, m, i => do
    if i.size ≤ left then return (m, i)
    else
      let (m, i) ← m.readField i
      readFields left fuel m i

/-- Reads a message with its length before it; its fields must
end where it ends. -/
def ofMessage (i : Input) : Except Protobuf.Error (Metric × Input) := do
  let (n, i) ← (readVarint i).mapError (Protobuf.Error.mk none)
  if i.size < n then .error ⟨none, .underflow⟩
  else
    let (m, rest) ← readFields (i.size - n) (n + 1) blank i
    if rest.size = i.size - n then return (m, rest)
      else .error ⟨none, .lengthExceeded⟩

end Metric

namespace Batch

def toMessages (batch : Batch) : Bytes :=
  batch.flatMap Metric.toMessage

/-- Reads messages until the input ends; `acc` holds the metrics read
before, the last first. -/
def readMessages : Nat → Batch → Input → Except Protobuf.Error Batch
  | 0, acc, _ => .ok acc.reverse
  | fuel + 1, acc, i => do
    if i.size = 0 then return acc.reverse
    else
      let (m, i) ← Metric.ofMessage i
      readMessages fuel (m :: acc) i

def ofMessages (bytes : Bytes) : Except Protobuf.Error Batch :=
  let i := Input.ofBytes bytes
  readMessages (i.size + 1) [] i

end Batch

end Telemetry
