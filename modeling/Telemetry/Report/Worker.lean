import Telemetry.Report.Ledger
import Telemetry.Report.Transport

/-!
# Workers

A batch is sent in chunks that are on their way at the same time and arrive in
any order.  It has succeeded when all of them have; otherwise its increment of
the poll count is forgotten and the first failure is reported.  When shutdown
comes before all chunks have been heard of, the others may still arrive or may
never be sent, and the batch has failed.
-/

namespace Telemetry

/-- What happens next while chunks are on their way. -/
inductive Turn where
  /-- A chunk, by its place in the batch, is delivered or fails. -/
  | finish (chunk : Nat)
  | shutdown
  deriving DecidableEq, Repr

/-- The chunks on their way, none where one is done, the first failure, and
whether shutdown has come. -/
structure Flight (σ : Type) where
  chunks : List (Option Batch)
  failure : Option TransportError
  stopped : Bool
  world : σ

namespace Flight

variable {σ : Type}

/-- The chunks of a batch before any is done. -/
def start (chunks : List Batch) (world : σ) : Flight σ :=
  ⟨chunks.map some, none, false, world⟩

/-- One thing happens; what becomes of a chunk after
shutdown is not heard of. -/
def step (deliver : Batch → StateM σ (Except TransportError Unit))
    (f : Flight σ) :
    Turn → Flight σ
  | .shutdown =>
    { f with failure := f.failure.or (some .cancelled), stopped := true }
  | .finish i =>
    match f.chunks[i]? with
    | some (some chunk) =>
      let (result, world) := deliver chunk f.world
      let failed : Option TransportError :=
        match result with
        | .ok () => none
        | .error e => if f.stopped then none else some e
      { f with
        chunks := f.chunks.set i none
        failure := f.failure.or failed
        world := world }
    | _ => f

/-- Things happen in order; then, unless shutdown has come, the chunks that are
left are done one after the other. -/
def run (deliver : Batch → StateM σ (Except TransportError Unit))
    (turns : List Turn) (f : Flight σ) : Flight σ :=
  let f := turns.foldl (step deliver) f
  if f.stopped then f
  else ((List.range f.chunks.length).map Turn.finish).foldl (step deliver) f

end Flight

/-- What sends batches: the greatest number of chunks at a
time, and the ledger. -/
structure WorkerPool where
  rateLimit : Nat
  ledger : PollLedger
  deriving DecidableEq, Repr

namespace WorkerPool

variable {σ : Type}

/-- A pool that has sent nothing. -/
def new (rateLimit : Nat) : WorkerPool := ⟨rateLimit, .start⟩

/-- Sends a batch, during which things happen in the order of `turns`. -/
def process (deliver : Batch → StateM σ (Except TransportError Unit))
    (turns : List Turn) (batch : Batch) (pool : WorkerPool) (world : σ) :
    Except TransportError Unit × WorkerPool × σ :=
  if batch.isEmpty then (.ok (), pool, world)
  else
    let (booked, ledger) := (pool.ledger.book? batch).getD (batch, pool.ledger)
    let tracked := (pool.ledger.book? batch).isSome
    let flight :=
      (Flight.start (partition pool.rateLimit booked) world).run deliver turns
    match flight.failure with
    | none => (.ok (), { pool with ledger := ledger }, flight.world)
    | some e =>
      let ledger := if tracked then ledger.rollback else ledger
      (.error e, { pool with ledger := ledger }, flight.world)

/-- Sends batches in order until shutdown comes; a batch that fails
otherwise is dropped. -/
def run (deliver : Batch → StateM σ (Except TransportError Unit)) :
    List (Batch × List Turn) → WorkerPool → σ → WorkerPool × σ
  | [], pool, world => (pool, world)
  | (batch, turns) :: rest, pool, world =>
    match process deliver turns batch pool world with
    | (.error .cancelled, pool, world) => (pool, world)
    | (_, pool, world) => run deliver rest pool world

end WorkerPool

end Telemetry
