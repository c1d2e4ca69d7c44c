import Telemetry.Metric.Basic
import Telemetry.Json.Value

/-!
# Metrics as documents

A metric is written as an object with its fields in the order id, type, delta,
value, absent ones left out.  It is read from an object with its fields in any
order, fields that nobody knows included, or from a list in the order of
writing; a type may also be an object with the type as its only key.
-/

namespace Telemetry

open Json

/-- The bytes of an ASCII text that appears in every document. -/
def Json.literal (s : String) : Bytes := Utf8.encode s

namespace Metric

/-- A field that is left out when absent. -/
def writeOptional {α : Type} (label : String) (write : α → Bytes) :
    Option α → Bytes
  | none => []
  | some a => literal label ++ write a

def toJson (m : Metric) : Bytes :=
  literal "\x7b\"id\":" ++ writeText m.id
    ++ literal ",\"type\":" ++ writeText m.kind.name
    ++ writeOptional ",\"delta\":" writeInt64 m.delta
    ++ writeOptional ",\"value\":" writeReal m.value
    ++ literal "\x7d"

def structureName : String := "struct Metric"

def readKind (c : Cursor) : Except Json.Error (Kind × Cursor) := do
  let c := c.skipSpace
  if c.sees 0x7B then
    let (name, c) ← c.advance.text "variant identifier"
    let c ← c.colon
    let c ← c.token
    let c ← if c.sees 0x6E then Cursor.readWord nullTail c.advance
      else c.refuse "unit"
    let c := c.skipSpace
    if c.sees 0x7D then return (.ofName name, c.advance)
    else if c.rest = [] then c.fail .endInObject
    else c.fail .expectedValue
  else if c.sees quoteByte then
    let (name, c) ← c.advance.readText
    return (.ofName name, c)
  else if c.rest = [] then c.fail .endInValue
  else c.failNext .expectedValue

/-- The fields read so far; an optional field may have been read as absent. -/
structure Fields where
  id : Option String
  kind : Option Kind
  delta : Option (Option Int64)
  value : Option (Option Binary64)

/-- No field yet. -/
def Fields.none : Fields := ⟨.none, .none, .none, .none⟩

def Fields.step (f : Fields) (key : String) (c : Cursor) :
    Except Cursor.Failure (Fields × Cursor) := do
  if key = "id" then
    let (id, c) ← Cursor.member f.id key (·.text "a string") c
    return ({ f with id := some id }, c)
  else if key = "type" then
    let (kind, c) ← Cursor.member f.kind key readKind c
    return ({ f with kind := some kind }, c)
  else if key = "delta" then
    let (delta, c) ← Cursor.member f.delta key (Cursor.optional Cursor.int64) c
    return ({ f with delta := some delta }, c)
  else if key = "value" then
    let (value, c) ← Cursor.member f.value key (Cursor.optional Cursor.real) c
    return ({ f with value := some value }, c)
  else
    let c ← Cursor.placed do (← c.colon).passValue
    return (f, c)

def Fields.finish (f : Fields) : Except Fault Metric :=
  match f.id, f.kind with
  | .none, _ => .error (.missingField "id")
  | some _, .none => .error (.missingField "type")
  | some id, some kind => .ok ⟨id, kind, f.delta.getD .none, f.value.getD .none⟩

def readItems (c : Cursor) : Except Cursor.Failure (Metric × Cursor) := do
  let expected := s!"{structureName} with 4 elements"
  match ← Cursor.element true (·.text "a string") c with
  | (.none, c) => .error (.unplaced (.wrongLength 0 expected) c)
  | (some id, c) =>
    match ← Cursor.element false readKind c with
    | (.none, c) => .error (.unplaced (.wrongLength 1 expected) c)
    | (some kind, c) =>
      let (delta, c) ← Cursor.element false (Cursor.optional Cursor.int64) c
      let (value, c) ← Cursor.element false (Cursor.optional Cursor.real) c
      return (⟨id, kind, delta.join, value.join⟩, c)

def read (c : Cursor) : Except Json.Error (Metric × Cursor) := do
  let c ← c.token
  if c.sees 0x5B then
    Cursor.within Cursor.afterList Cursor.closeList (readItems c.advance)
  else if c.sees 0x7B then
    c.object Fields.none Fields.step Fields.finish
  else c.refuse structureName

def ofJson (bytes : Bytes) : Except Json.Error Metric :=
  document read bytes

end Metric

namespace Batch

def joinJson : Batch → Bytes
  | [] => []
  | [m] => m.toJson
  | m :: rest => m.toJson ++ literal "," ++ joinJson rest

def toJson (batch : Batch) : Bytes :=
  literal "[" ++ joinJson batch ++ literal "]"

def ofJson (bytes : Bytes) : Except Json.Error Batch :=
  document (Cursor.listOf Metric.read) bytes

end Batch

end Telemetry
