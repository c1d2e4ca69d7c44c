import Telemetry.Metric.Verification
import Telemetry.Store.Backend

/-!
# The metric service

What clients can ask for, whatever way they ask: to store one metric or a batch,
to read a metric, and whether the store is well.  Requests are verified before
they reach the store.  A batch is stored as a list of gauges followed by a list
of counters, and only a batch without violations is stored at all.
-/

namespace Telemetry

/-- Why a request fails. -/
inductive ServiceError where
  | rejected (rejection : Rejection)
  | notFound (kind : Kind) (id : String)
  | storage (error : StorageError)
  deriving DecidableEq, Repr

def ServiceError.message : ServiceError → String
  | .rejected rejection => rejection.message
  | .notFound kind id => s!"{kind.name} {Text.quote id} not found"
  | .storage error => error.message

def ServiceError.ofStorage : StorageError → ServiceError
  | .notFound kind id => .notFound kind id
  | error => .storage error

/-- A request: its answer or failure, and the store afterwards. -/
abbrev ServiceM (σ : Type) := ExceptT ServiceError (StateM σ)

namespace Service

variable {σ : Type} [SampleStore σ]

def ask {σ α : Type} (op : StoreM σ α) : ServiceM σ α := fun s =>
  let (result, s) := op s
  (result.mapError ServiceError.ofStorage, s)

/-- Goes on only when nothing was rejected. -/
def require {σ : Type} (verdict : Except Rejection Unit) : ServiceM σ Unit :=
  match verdict with
  | .ok () => return
  | .error rejection => throw (.rejected rejection)

/-- What a metric writes. -/
inductive Write where
  | gauge (id : String) (value : Binary64)
  | counter (id : String) (delta : Int64)
  deriving DecidableEq, Repr

/-- The rejection of a metric that does not say what to write. -/
def unstorable (id : String) : Rejection :=
  .malformed s!"metric {Text.quote id} cannot be stored"

def write? (m : Metric) : Option Write :=
  match m.kind, m.value, m.delta with
  | .gauge, some value, _ => some (.gauge m.id value)
  | .counter, _, some delta => some (.counter m.id delta)
  | _, _, _ => none

/-- Stores a metric; the answer holds what is stored now. -/
def update (m : Metric) : ServiceM σ Metric := do
  require (m.verify updateRules)
  match write? m with
  | some (.gauge id value) =>
    return .gauge id (← ask (SampleStore.updateGauge id value))
  | some (.counter id delta) =>
    return .counter id (← ask (SampleStore.updateCounter id delta))
  | none => throw (.rejected (unstorable m.id))

def read (key : Metric) : ServiceM σ Metric := do
  require (key.verify readRules)
  match key.kind with
  | .gauge => return .gauge key.id (← ask (SampleStore.gauge key.id))
  | .counter => return .counter key.id (← ask (SampleStore.counter key.id))
  | .unknown =>
    throw (.rejected (.malformed s!"metric {Text.quote key.id} has no type"))

/-- What the metrics of a batch write, unless one of them does not say it. -/
def writes (batch : Batch) : Except Rejection (List Write) :=
  batch.mapM fun m =>
    match write? m with
    | some w => .ok w
    | none => .error (unstorable m.id)

def gaugesOf (ws : List Write) : List (String × Binary64) :=
  ws.filterMap fun
    | .gauge id value => some (id, value)
    | .counter _ _ => none

def countersOf (ws : List Write) : List (String × Int64) :=
  ws.filterMap fun
    | .gauge _ _ => none
    | .counter id delta => some (id, delta)

/-- Stores gauges, then counters. -/
def store (ws : List Write) : ServiceM σ Unit := do
  let gauges := gaugesOf ws
  let counters := countersOf ws
  unless gauges.isEmpty do ask (SampleStore.updateGauges gauges)
  unless counters.isEmpty do ask (SampleStore.updateCounters counters)

/-- Stores a batch; the answer is the number of its metrics. -/
def updateBatch (batch : Batch) : ServiceM σ Nat := do
  require (Batch.verify updateRules batch)
  match writes batch with
  | .ok ws => store ws
  | .error rejection => throw (.rejected rejection)
  return batch.length

/-- Fails when the store cannot serve. -/
def ping : ServiceM σ Unit := ask SampleStore.ping

end Service

end Telemetry
