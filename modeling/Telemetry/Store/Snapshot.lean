import Telemetry.Samples
import Telemetry.Metric.Json

/-!
# Snapshots

The document of all samples: an object with the totals of the counters and the
values of the gauges.  A map may be written in any order of its names; here it
is written in ascending order.  A section that is missing is read as an empty
one, and a name that occurs twice has its last value.  A value that is not
finite is written as null, which cannot be read.
-/

namespace Telemetry

open Json

namespace Samples

def joinMembers {α : Type} (write : α → Bytes) : List (String × α) → Bytes
  | [] => []
  | [(name, a)] => writeText name ++ literal ":" ++ write a
  | (name, a) :: rest =>
    writeText name ++ literal ":" ++ write a ++ literal "," ++
      joinMembers write rest

def sectionJson {α : Type} (write : α → Bytes) (entries : List (String × α)) :
    Bytes :=
  literal "\x7b" ++ joinMembers write entries ++ literal "\x7d"

/-- The document of totals and values as they are listed. -/
def writeJson (counters : List (String × Int64))
    (gauges : List (String × Binary64)) : Bytes :=
  literal "\x7b\"counter\":" ++ sectionJson writeInt64 counters
    ++ literal ",\"gauge\":" ++ sectionJson writeReal gauges
    ++ literal "\x7d"

def toJson (s : Samples) : Bytes :=
  writeJson s.counters.entries s.gauges.entries

/-- The sections read so far. -/
structure Sections where
  counters : Option (List (String × Int64))
  gauges : Option (List (String × Binary64))

/-- No section yet. -/
def Sections.none : Sections := ⟨.none, .none⟩

def readSection {α : Type} (read : Cursor → Except Json.Error (α × Cursor))
    (c : Cursor) :
    Except Json.Error (List (String × α) × Cursor) :=
  c.mapOf "a map" read

def Sections.step (s : Sections) (key : String) (c : Cursor) :
    Except Cursor.Failure (Sections × Cursor) := do
  if key = "counter" then
    let (counters, c) ← Cursor.member s.counters key
      (readSection Cursor.int64) c
    return ({ s with counters := some counters }, c)
  else if key = "gauge" then
    let (gauges, c) ← Cursor.member s.gauges key (readSection Cursor.real) c
    return ({ s with gauges := some gauges }, c)
  else
    let c ← Cursor.placed do (← c.colon).passValue
    return (s, c)

def Sections.samples (s : Sections) : Samples :=
  ⟨.ofList (s.gauges.getD []), .ofList (s.counters.getD [])⟩

def readItems (c : Cursor) : Except Cursor.Failure (Samples × Cursor) := do
  let (counters, c) ← Cursor.element true (readSection Cursor.int64) c
  let (gauges, c) ← Cursor.element false (readSection Cursor.real) c
  return (Sections.samples ⟨counters, gauges⟩, c)

def read (c : Cursor) : Except Json.Error (Samples × Cursor) := do
  let c ← c.token
  if c.sees 0x5B then
    Cursor.within Cursor.afterList Cursor.closeList (readItems c.advance)
  else if c.sees 0x7B then
    c.object Sections.none Sections.step fun s => .ok s.samples
  else c.refuse "struct State"

def ofJson (bytes : Bytes) : Except Json.Error Samples :=
  document read bytes

end Samples

end Telemetry
