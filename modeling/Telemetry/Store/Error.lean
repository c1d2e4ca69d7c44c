import Telemetry.Disk
import Telemetry.Metric.Basic
import Telemetry.Text.Quoted
import Telemetry.Json.Cursor

/-!
# Failures of storage

A failure of a database keeps its cause, and only the cause decides whether
trying again can help: lost connections and lock conflicts pass, everything else
stays.
-/

namespace Telemetry

/-- What went wrong between the store and its database. -/
inductive DatabaseCause where
  /-- A failure of the layer above the driver. -/
  | internal (reason : String)
  | io (reason : String)
  | poolTimedOut
  | poolClosed
  | workerCrashed
  | rowNotFound
  /-- A column holds a value of another type than the one that was asked for. -/
  | mismatch (column expected found : String)
  /-- An answer of the database itself, with its code. -/
  | reported (code : Option String) (message : String)
  deriving DecidableEq, Repr

def DatabaseCause.message : DatabaseCause → String
  | .internal reason => reason
  | .io reason => s!"error communicating with database: {reason}"
  | .poolTimedOut => "pool timed out while waiting for an open connection"
  | .poolClosed => "attempted to acquire a connection on a closed pool"
  | .workerCrashed =>
    "attempted to communicate with a crashed background worker"
  | .rowNotFound =>
    "no rows returned by a query that expected to return at least one row"
  | .mismatch column expected found =>
    s!"error occurred while decoding column {Text.quote column}: "
      ++ s!"mismatched types; Rust type {expected} "
      ++ s!"is not compatible with SQL type {found}"
  | .reported _ message => s!"error returned from database: {message}"

/-- Whether the code of a database reports a lost connection, a serialization
failure, a deadlock, or a busy or locked database. -/
def isTransientCode (code : String) : Bool :=
  code.startsWith "08" || code == "40001" || code == "40P01" || code == "5" ||
    code == "6"

/-- Whether a cause may pass by itself. -/
def DatabaseCause.isTransient : DatabaseCause → Bool
  | .io _ | .poolTimedOut | .poolClosed | .workerCrashed => true
  | .reported (some code) _ => isTransientCode code
  | _ => false

/-- What a store was doing when its database failed. -/
inductive DatabaseError where
  | connect (cause : DatabaseCause)
  | execute (cause : DatabaseCause)
  | query (cause : DatabaseCause)
  /-- No connection became free in time. -/
  | acquireTimeout
  /-- There are no connections any more. -/
  | acquireClosed
  | type (reason : String)
  | recordNotFound (reason : String)
  | custom (reason : String)
  deriving DecidableEq, Repr

namespace DatabaseError

def message : DatabaseError → String
  | .connect cause => s!"Connection Error: {cause.message}"
  | .execute cause => s!"Execution Error: {cause.message}"
  | .query cause => s!"Query Error: {cause.message}"
  | .acquireTimeout =>
    "Failed to acquire connection from pool: Connection pool timed out"
  | .acquireClosed =>
    "Failed to acquire connection from pool: Connection closed"
  | .type reason => s!"Type Error: {reason}"
  | .recordNotFound reason => s!"RecordNotFound Error: {reason}"
  | .custom reason => s!"Custom Error: {reason}"

/-- Whether a failure may pass by itself. -/
def isTransient : DatabaseError → Bool
  | .connect _ | .acquireTimeout | .acquireClosed => true
  | .execute cause | .query cause => cause.isTransient
  | _ => false

end DatabaseError

/-- Why a store fails. -/
inductive StorageError where
  /-- The sample was never written. -/
  | notFound (kind : Kind) (id : String)
  | database (error : DatabaseError)
  | io (error : IoError)
  /-- The snapshot is not one. -/
  | json (error : Json.Error)
  /-- Something that stays as it is. -/
  | permanent (reason : String)
  deriving DecidableEq, Repr

namespace StorageError

def message : StorageError → String
  | .notFound kind id => s!"Storage: {kind.name} {Text.quote id} not found"
  | .database error => s!"Storage: database error: {error.message}"
  | .io error => s!"Storage: I/O error: {error.message}"
  | .json error => s!"Storage: JSON error: {error.message}"
  | .permanent reason => s!"Storage: {reason}"

/-- Whether trying again can help. -/
def isTransient : StorageError → Bool
  | .database error => error.isTransient
  | _ => false

end StorageError

/-- An operation on a store: its answer or failure, and the store afterwards. -/
abbrev StoreM (σ : Type) := ExceptT StorageError (StateM σ)

/-- What the service asks of a store. -/
class SampleStore (σ : Type) where
  /-- Replaces a gauge and gives its value. -/
  updateGauge : String → Binary64 → StoreM σ Binary64
  /-- Adds to a counter and gives its total. -/
  updateCounter : String → Int64 → StoreM σ Int64
  /-- Replaces gauges in order, all of them or none. -/
  updateGauges : List (String × Binary64) → StoreM σ Unit
  /-- Adds to counters in order, to all of them or none. -/
  updateCounters : List (String × Int64) → StoreM σ Unit
  gauge : String → StoreM σ Binary64
  counter : String → StoreM σ Int64
  gauges : StoreM σ (List (String × Binary64))
  counters : StoreM σ (List (String × Int64))
  /-- Fails when the store cannot serve. -/
  ping : StoreM σ Unit

end Telemetry
