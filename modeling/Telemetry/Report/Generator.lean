import Telemetry.Metric.Basic

/-!
# Reports

At every interval a generator takes the union of what the providers keep and
hands it to the workers through a channel that holds one batch.  While the
channel is full the generator waits with the batch it has taken and takes no
other; a tick that it has missed in the meantime comes at once.  A union without
metrics is not a report.
-/

namespace Telemetry

/-- What a generator is at. -/
inductive GeneratorPhase where
  /-- It waits for its next tick. -/
  | waiting
  /-- It has a batch for which the channel has no room. -/
  | sending (batch : Batch)
  | stopped
  deriving DecidableEq, Repr

/-- A generator with its channel. -/
structure Generator where
  interval : Nat
  /-- The instant of the next tick. -/
  due : Nat
  phase : GeneratorPhase
  /-- The batch in the channel. -/
  buffer : Option Batch
  /-- Whether anybody receives from the channel. -/
  receiving : Bool
  deriving DecidableEq, Repr

namespace Generator

def start (interval now : Nat) : Generator :=
  ⟨interval, now + interval, .waiting, none, true⟩

/-- How late a tick may come, in milliseconds, without those after
it being put off. -/
def tolerance : Nat := 5

/-- The tick that is due comes. -/
def tick (g : Generator) (now : Nat) (union : Batch) : Generator :=
  if g.phase = .waiting ∧ g.due ≤ now then
    { g with
      due := (if g.due + tolerance < now then now else g.due) + g.interval
      phase := if union.isEmpty then .waiting else .sending union }
  else g

/-- The batch that waits goes into the channel if there is room; when nobody
receives it the generator stops. -/
def offer (g : Generator) : Generator :=
  match g.phase, g.buffer with
  | .sending batch, none =>
    if g.receiving then { g with phase := .waiting, buffer := some batch }
    else { g with phase := .stopped }
  | _, _ => g

def settle (g : Generator) (now : Nat) (union : Batch) : Generator :=
  (g.offer.tick now union).offer

def shutDown (g : Generator) : Generator := { g with phase := .stopped }

/-- The receiver goes away, and the batch in the channel with it. -/
def dropReceiver (g : Generator) : Generator :=
  { g with buffer := none, receiving := false }

def receive (g : Generator) : Option Batch × Generator :=
  (g.buffer, { g with buffer := none })

/-- The ticks that come before an instant, at most `bound` of them; `unionAt` is
the union at each instant. -/
def passTicks (unionAt : Nat → Batch) (later : Nat) :
    Nat → Generator → Generator
  | 0, g => g
  | bound + 1, g =>
    if g.phase = .waiting ∧ g.due < later then
      passTicks unionAt later bound (g.settle g.due (unionAt g.due))
    else g

/-- A bound on the number of ticks that come before an instant. -/
def tickBound (g : Generator) (later : Nat) : Nat :=
  (later - g.due) / g.interval + 1

/-- Time passes until an instant; what is due at that instant is left
for the next time. -/
def elapse (g : Generator) (unionAt : Nat → Batch) (now later : Nat) :
    Generator :=
  if now < later then
    let g := g.settle now (unionAt now)
    passTicks unionAt later (g.tickBound later) g
  else g

/-- The ticks that come until there is a batch in the channel, and the
instant of the last one. -/
def ticksToBatch (unionAt : Nat → Batch) (later : Nat) :
    Nat → Generator → Option (Nat × Generator)
  | 0, _ => none
  | bound + 1, g =>
    if g.phase = .waiting ∧ g.due < later then
      let next := g.settle g.due (unionAt g.due)
      if next.buffer.isSome then some (g.due, next)
      else ticksToBatch unionAt later bound next
    else none

/-- What comes of waiting for a batch. -/
inductive Awaited where
  | batch (batch : Batch)
  /-- The generator has stopped and the channel is empty. -/
  | closed
  | timeout
  deriving DecidableEq, Repr

/-- Waits for a batch until an instant at most; the instant at which
the waiting ends. -/
def await (g : Generator) (unionAt : Nat → Batch) (now later : Nat) :
    Awaited × Nat × Generator :=
  let g := if g.buffer.isSome then g else g.settle now (unionAt now)
  match g.buffer with
  | some batch => (.batch batch, now, g.receive.2)
  | none =>
    if g.phase = .stopped then (.closed, now, g)
    else
      match ticksToBatch unionAt later (g.tickBound later) g with
      | some (instant, next) =>
        match next.buffer with
        | some batch => (.batch batch, instant, next.receive.2)
        | none => (.timeout, later, next)
      | none => (.timeout, later, g.elapse unionAt now later)

end Generator

end Telemetry
