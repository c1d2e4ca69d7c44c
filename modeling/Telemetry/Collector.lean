import Telemetry.Allocation
import Telemetry.Samples

/-!
# Collectors

A collector measures one family of values each time it is polled.  There are
three: the memory of the process itself, the memory and the processors of the
host, and values that are made up, among them the number of polls.
-/

namespace Telemetry

/-- A source of samples: what its polls find, counted from zero,
or why they fail. -/
structure Collector where
  name : String
  collect : Nat → Except String Samples

namespace Collector

/-- The gauges of the process, in the order in which they are documented. -/
def runtimeGauges : List String := [
  "Alloc", "BuckHashSys", "Frees", "GCCPUFraction", "GCSys", "HeapAlloc",
  "HeapIdle", "HeapInuse", "HeapObjects", "HeapReleased", "HeapSys", "LastGC",
  "Lookups", "MCacheInuse", "MCacheSys", "MSpanInuse", "MSpanSys", "Mallocs",
  "NextGC", "NumForcedGC", "NumGC", "OtherSys", "PauseTotalNs", "StackInuse",
  "StackSys", "Sys", "TotalAlloc"]

/-- What is measured of the process: what it has allocated, and the bytes that
the system holds for it, in all and in memory. -/
structure ProcessMeasure where
  counts : AllocationCounts
  virtualBytes : Nat
  residentBytes : Nat

def ProcessMeasure.gauges (m : ProcessMeasure) : List (String × Nat) :=
  let live := m.counts.liveBytes.toNat
  [("Alloc", live), ("HeapAlloc", live), ("HeapInuse", live),
    ("HeapObjects", m.counts.liveObjects.toNat),
    ("TotalAlloc", m.counts.allocatedBytes.toNat),
    ("Mallocs", m.counts.mallocs.toNat), ("Frees", m.counts.frees.toNat),
    ("Sys", m.virtualBytes), ("HeapSys", m.residentBytes),
    ("HeapIdle", m.residentBytes - live),
    ("OtherSys", m.virtualBytes - m.residentBytes)]

/-- The samples of the process; the gauges that are not measured are zero. -/
def ProcessMeasure.samples (m : ProcessMeasure) : Samples :=
  let zeros := runtimeGauges.map fun name => (name, Binary64.zero)
  .ofLists (zeros ++ m.gauges.map fun (name, n) => (name, Binary64.ofNat n)) []

def runtime (measure : Nat → Except String ProcessMeasure) : Collector :=
  ⟨"runtime", fun poll => (measure poll).map ProcessMeasure.samples⟩

/-- What is measured of the host: bytes of memory, and the percentage that each
processor was busy. -/
structure HostMeasure where
  totalMemory : Nat
  freeMemory : Nat
  usage : List Binary64

/-- The gauge of a processor: processors are numbered from one, with
two digits at least. -/
def processorName (index : Nat) : String :=
  let number := toString (index + 1)
  let padding := if number.length < 2 then "0" else ""
  s!"CPUutilization{padding}{number}"

/-- A number, brought between zero and one. -/
def clampToUnit (x : Binary64) : Binary64 :=
  let one := Binary64.ofNat 1
  if x.isNaN then x
  else if x.isNegative then (if x.pattern = 0 then x else .zero)
  else if one.pattern < x.pattern then one
  else x

/-- The samples of the host, which has at least one processor. -/
def HostMeasure.samples (m : HostMeasure) : Except String Samples :=
  if m.usage.isEmpty then .error "no CPU information available"
  else
    let busy := m.usage.zipIdx.map fun (percent, i) =>
      (processorName i, clampToUnit (percent.div (Binary64.ofNat 100)))
    .ok (.ofLists
      (("TotalMemory", .ofNat m.totalMemory) ::
        ("FreeMemory", .ofNat m.freeMemory) :: busy) [])

def host (measure : Nat → HostMeasure) : Collector :=
  ⟨"host", fun poll => (measure poll).samples⟩

/-- The collector of made-up values: a random number from zero to one, and the
number of polls since the beginning. -/
def synthetic (random : Nat → Binary64) : Collector :=
  ⟨"synthetic", fun poll =>
    .ok (.ofLists [("RandomValue", random poll)]
      [(Metric.pollCount, Int64.ofNat (poll + 1))])⟩

end Collector

end Telemetry
