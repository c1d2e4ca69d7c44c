import Telemetry.Provider
import Telemetry.Report.Generator
import Telemetry.Report.Worker

/-!
# The reporter

A generator and the workers that send its reports, as one component.  It is
started once.  Sending takes no time, so the workers are ready for every report.
-/

namespace Telemetry

/-- A reporter with its providers, in a world that it sends reports to. -/
structure Reporter (σ : Type) where
  providers : Providers
  interval : Nat
  pool : WorkerPool
  /-- The generator since the start. -/
  generator : Option Generator
  cancelled : Bool
  world : σ

namespace Reporter

variable {σ : Type}

def name : String := "reporter"

/-- A reporter that was never started. -/
def new (providers : Providers) (interval rateLimit : Nat) (world : σ) :
    Reporter σ :=
  ⟨providers, interval, .new rateLimit, none, false, world⟩

/-- Starts the generator and the workers. -/
def start (r : Reporter σ) (now : Nat) : Except String (Reporter σ) :=
  match r.generator with
  | some _ => .error "reporter already started"
  | none =>
    let generator := Generator.start r.interval now
    .ok { r with
      generator :=
        some (if r.cancelled then generator.shutDown else generator) }

def startProviders (r : Reporter σ) (now : Nat) : Reporter σ :=
  if r.cancelled then r else { r with providers := r.providers.start now }

def shutDown (r : Reporter σ) : Reporter σ :=
  { r with
    providers := r.providers.shutDown
    generator := r.generator.map Generator.shutDown
    cancelled := true }

/-- The reports before an instant are sent, at most `bound` of them. -/
def sendReports (deliver : Batch → StateM σ (Except TransportError Unit))
    (unionAt : Nat → Batch) (later : Nat) :
    Nat → Nat → Generator → WorkerPool → σ → Generator × WorkerPool × σ
  | 0, _, g, pool, world => (g, pool, world)
  | bound + 1, now, g, pool, world =>
    match g.await unionAt now later with
    | (.batch batch, instant, g) =>
      let (_, pool, world) := pool.process deliver [] batch world
      sendReports deliver unionAt later bound instant g pool world
    | (_, _, g) => (g, pool, world)

/-- Time passes until an instant; what is due at that instant is left
for the next time. -/
def elapse (deliver : Batch → StateM σ (Except TransportError Unit))
    (r : Reporter σ) (now later : Nat) : Reporter σ :=
  let providers := r.providers.elapse later
  match r.generator with
  | none => { r with providers := providers }
  | some g =>
    let unionAt (instant : Nat) := (r.providers.elapse instant).metrics
    let (g, pool, world) :=
      if now < later then
        sendReports deliver unionAt later
          (g.tickBound later + 1) now g r.pool r.world
      else (g, r.pool, r.world)
    { r with
      providers := providers
      generator := some g
      pool := pool
      world := world }

end Reporter

end Telemetry
