import Telemetry.Binary64.Text
import Telemetry.Text.Integer

/-!
# Metrics

A metric is a named sample of one of two kinds.  A gauge replaces the value
stored under its id, a counter adds to it.  A metric that has just been read
may carry any combination of fields and a kind that nobody knows; the
verification rules decide whether it makes sense.
-/

namespace Telemetry

/-- The kind of a metric. -/
inductive Kind where
  | gauge
  | counter
  | unknown
  deriving DecidableEq, Repr

namespace Kind

def name : Kind → String
  | .gauge => "gauge"
  | .counter => "counter"
  | .unknown => "unknown"

def ofName? (s : String) : Option Kind :=
  if s = "gauge" then some .gauge
  else if s = "counter" then some .counter
  else none

/-- The kind that a document means by a name; any name but two
means an unknown one. -/
def ofName (s : String) : Kind :=
  (ofName? s).getD .unknown

/-- The message about a name that is no kind. -/
def unknownMessage (s : String) : String :=
  s!"unknown metric type: {s}"

end Kind

/-- A sample: `value` belongs to gauges and `delta` to counters. -/
structure Metric where
  id : String
  kind : Kind
  delta : Option Int64
  value : Option Binary64
  deriving DecidableEq, Repr

/-- Metrics that travel together, in order. -/
abbrev Batch := List Metric

namespace Metric

def gauge (id : String) (value : Binary64) : Metric :=
  ⟨id, .gauge, none, some value⟩

def counter (id : String) (delta : Int64) : Metric :=
  ⟨id, .counter, some delta, none⟩

/-- A metric that only says which sample is meant. -/
def key (id : String) (kind : Kind) : Metric :=
  ⟨id, kind, none, none⟩

/-- The text of the field that belongs to the kind; empty when it is absent. -/
def valueText (m : Metric) : String :=
  match m.kind with
  | .gauge => (m.value.map Binary64.toText).getD ""
  | .counter => (m.delta.map Text.int64Text).getD ""
  | .unknown => ""

def pollCount : String := "PollCount"

end Metric

end Telemetry
