import Telemetry.NameMap
import Telemetry.Store.Error

/-!
# Tables of a database

A database holds one table for each kind of metric, keyed by name, once it has
been migrated.  The statements insert a row or update the row of the same name,
and give the value that the row has then.  A value that is no number cannot be
stored, zero has no sign, and a total that leaves the range of integers goes on
as a real number, which cannot be read as a total.
-/

namespace Telemetry

/-- What a row of the counter table holds. -/
inductive TotalCell where
  | integer (value : Int64)
  | real (value : Binary64)
  deriving DecidableEq, Repr

/-- The tables, none where a table does not exist. -/
structure Tables where
  gauges : Option (NameMap Binary64)
  counters : Option (NameMap TotalCell)
  deriving DecidableEq, Repr

/-- Adds two integers unless the sum leaves their range. -/
def addInRange? (a b : Int64) : Option Int64 :=
  Text.int64OfInt? (a.toInt + b.toInt)

namespace TotalCell

def toReal : TotalCell → Binary64
  | .integer value => .ofInt value.toInt
  | .real value => value

/-- The cell of a real number: an integer where it is one strictly
inside the range. -/
def ofReal (x : Binary64) : TotalCell :=
  let units := x.signedUnits
  let value := units / Binary64.unitsPerOne
  if x.isFinite ∧ units % Binary64.unitsPerOne = 0
    ∧ Int64.minValue.toInt < value ∧ value < Int64.maxValue.toInt then
    .integer (Int64.ofInt value)
  else .real x

/-- The cell after something was added to it. -/
def add (cell : TotalCell) (delta : Int64) : TotalCell :=
  let inReals := ofReal (cell.toReal.add (.ofInt delta.toInt))
  match cell with
  | .integer value =>
    match addInRange? value delta with
    | some sum => .integer sum
    | none => inReals
  | .real _ => inReals

def read : TotalCell → Except DatabaseCause Int64
  | .integer value => .ok value
  | .real _ =>
    .error (.mismatch "value" "`i64` (as SQL type `INTEGER`)" "`REAL`")

end TotalCell

namespace Tables

/-- The database before its first migration. -/
def none : Tables := ⟨.none, .none⟩

/-- The complaint about a table that does not exist. -/
def noTable (name : String) : DatabaseCause :=
  .reported (some "1") s!"(code: 1) no such table: {name}"

/-- The complaint about a value that is no number. -/
def noValue : DatabaseCause :=
  .reported (some "1299") "(code: 1299) NOT NULL constraint failed: gauge.value"

def unsigned (x : Binary64) : Binary64 :=
  if x = Binary64.zero.negate then .zero else x

/-- Creates the tables that do not exist. -/
def migrate (t : Tables) : Tables :=
  ⟨some (t.gauges.getD .empty), some (t.counters.getD .empty)⟩

/-- Inserts or updates a gauge. -/
def upsertGauge (t : Tables) (name : String) (value : Binary64) :
    Except DatabaseCause (Binary64 × Tables) :=
  match t.gauges with
  | .none => .error (noTable "gauge")
  | some gauges =>
    if value.isNaN then .error noValue
    else .ok (unsigned value,
      { t with gauges := gauges.insert name (unsigned value) })

/-- Inserts or updates a counter. -/
def upsertCounter (t : Tables) (name : String) (delta : Int64) :
    Except DatabaseCause (TotalCell × Tables) :=
  match t.counters with
  | .none => .error (noTable "counter")
  | some counters =>
    let cell := match counters.find? name with
      | some cell => cell.add delta
      | .none => .integer delta
    .ok (cell, { t with counters := counters.insert name cell })

def selectGauge (t : Tables) (name : String) :
    Except DatabaseCause (Option Binary64) :=
  match t.gauges with
  | .none => .error (noTable "gauge")
  | some gauges => .ok (gauges.find? name)

def selectCounter (t : Tables) (name : String) :
    Except DatabaseCause (Option Int64) :=
  match t.counters with
  | .none => .error (noTable "counter")
  | some counters =>
    match counters.find? name with
    | some cell => some <$> cell.read
    | .none => .ok .none

def allGauges (t : Tables) : Except DatabaseCause (List (String × Binary64)) :=
  match t.gauges with
  | .none => .error (noTable "gauge")
  | some gauges => .ok gauges.entries

def allCounters (t : Tables) : Except DatabaseCause (List (String × Int64)) :=
  match t.counters with
  | .none => .error (noTable "counter")
  | some counters =>
    counters.entries.mapM fun entry => (entry.1, ·) <$> entry.2.read

end Tables

end Telemetry
