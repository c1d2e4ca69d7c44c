import Telemetry.NameMap
import Telemetry.Metric.Basic

/-!
# Samples

What a store holds and what a collector finds: the value of every gauge and the
total of every counter.  The two kinds have name spaces of their own.  Totals
wrap around at the ends of the range of 64-bit integers.
-/

namespace Telemetry

/-- The values that are stored under names. -/
structure Samples where
  gauges : NameMap Binary64
  counters : NameMap Int64
  deriving DecidableEq, Repr

namespace Samples

def empty : Samples := ⟨.empty, .empty⟩

def setGauge (s : Samples) (name : String) (value : Binary64) : Samples :=
  { s with gauges := s.gauges.insert name value }

/-- The total of a counter, zero if it was never written. -/
def total (s : Samples) (name : String) : Int64 :=
  (s.counters.find? name).getD 0

def addCounter (s : Samples) (name : String) (delta : Int64) : Samples :=
  { s with counters := s.counters.insert name (s.total name + delta) }

def setGauges (s : Samples) (gauges : List (String × Binary64)) : Samples :=
  gauges.foldl (fun s g => s.setGauge g.1 g.2) s

def addCounters (s : Samples) (counters : List (String × Int64)) : Samples :=
  counters.foldl (fun s c => s.addCounter c.1 c.2) s

/-- The samples of pairs, of which a later one with the same name wins. -/
def ofLists (gauges : List (String × Binary64))
    (counters : List (String × Int64)) : Samples :=
  ⟨.ofList gauges, .ofList counters⟩

/-- The samples as metrics: the gauges, then the counters, each in the
order of their names. -/
def toBatch (s : Samples) : Batch :=
  (s.gauges.entries.map fun g => Metric.gauge g.1 g.2)
    ++ s.counters.entries.map fun c => Metric.counter c.1 c.2

end Samples

end Telemetry
