import Telemetry.Collector

/-!
# Providers

A provider keeps what the last successful poll of its collector found.  All
providers of an agent are polled at the same interval, the first time when they
are started, until shutdown; a report is the union of what they keep.
-/

namespace Telemetry

/-- A collector, the number of its polls, and the samples of the last
one that succeeded. -/
structure Provider where
  collector : Collector
  polls : Nat
  latest : Samples

namespace Provider

/-- A provider that was never polled. -/
def new (collector : Collector) : Provider := ⟨collector, 0, .empty⟩

/-- Polls the collector; what was kept stays when it fails. -/
def poll (p : Provider) : Except String Unit × Provider :=
  let next := { p with polls := p.polls + 1 }
  match p.collector.collect p.polls with
  | .ok samples => (.ok (), { next with latest := samples })
  | .error reason => (.error reason, next)

def pollTimes (p : Provider) : Nat → Provider
  | 0 => p
  | n + 1 => pollTimes p.poll.2 n

end Provider

/-- When a provider is polled next. -/
structure Ticker where
  provider : Nat
  due : Nat
  deriving DecidableEq, Repr

/-- The providers of an agent, the milliseconds between their polls,
and what polls them. -/
structure Providers where
  members : List Provider
  interval : Nat
  tickers : List Ticker

/-- How often a ticker ticks before an instant. -/
def Ticker.ticks (interval later : Nat) (t : Ticker) : Nat :=
  if t.due < later then (later - 1 - t.due) / interval + 1 else 0

namespace Providers

/-- Providers that were never started. -/
def new (interval : Nat) (collectors : List Collector) : Providers :=
  ⟨collectors.map Provider.new, interval, []⟩

/-- The union of what the providers keep, in their order. -/
def metrics (p : Providers) : Batch :=
  p.members.flatMap fun provider => provider.latest.toBatch

def poll (p : Providers) (index : Nat) : Except String Unit × Providers :=
  match p.members[index]? with
  | none => (.ok (), p)
  | some provider =>
    let (result, provider) := provider.poll
    (result, { p with members := p.members.set index provider })

/-- The providers start to be polled, the first time at once. -/
def start (p : Providers) (now : Nat) : Providers :=
  { p with
    tickers := p.tickers ++
      (List.range p.members.length).map fun i => ⟨i, now⟩ }

/-- The providers are polled no more. -/
def shutDown (p : Providers) : Providers := { p with tickers := [] }

/-- Time passes until an instant; what is due at that instant is left
for the next time. -/
def elapse (p : Providers) (later : Nat) : Providers :=
  let polled := p.tickers.foldl
    (fun members t =>
      members.modify t.provider fun provider =>
        provider.pollTimes (t.ticks p.interval later)) p.members
  let tickers := p.tickers.map fun t =>
    { t with due := t.due + t.ticks p.interval later * p.interval }
  { p with members := polled, tickers := tickers }

end Providers

end Telemetry
