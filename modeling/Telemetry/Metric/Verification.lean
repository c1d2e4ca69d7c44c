import Telemetry.Metric.Basic
import Telemetry.Text.Blank
import Telemetry.Text.Quoted

/-!
# Verification of metrics

Each rule looks at one aspect of a metric.  An operation names the rules that
matter to it, and verification runs all of them and reports every violation of
every metric instead of stopping at the first.
-/

namespace Telemetry

/-- A rule that a metric broke. -/
inductive Violation where
  | emptyId
  | unknownKind
  | missingDelta
  | negativeDelta (delta : Int64)
  | missingValue
  | nonFiniteValue (value : Binary64)
  deriving DecidableEq, Repr

def Violation.message : Violation → String
  | .emptyId => "id is empty"
  | .unknownKind => "type must be gauge or counter"
  | .missingDelta => "counter requires delta"
  | .negativeDelta delta =>
    s!"delta must not be negative, got {Text.int64Text delta}"
  | .missingValue => "gauge requires value"
  | .nonFiniteValue value => s!"gauge value must be finite, got {value.toText}"

/-- An aspect of a metric that can be checked. -/
inductive Rule where
  /-- The id holds more than blanks. -/
  | id
  /-- The kind is known. -/
  | kind
  /-- A counter has its increment. -/
  | delta
  /-- The increment of a counter is not negative. -/
  | nonNegativeDelta
  /-- A gauge has its value, and the value is finite. -/
  | value
  deriving DecidableEq, Repr

def Rule.violation? (m : Metric) : Rule → Option Violation
  | .id => if Text.isBlankText m.id then some .emptyId else none
  | .kind => if m.kind = .unknown then some .unknownKind else none
  | .delta =>
    if m.kind = .counter ∧ m.delta = none then some .missingDelta else none
  | .nonNegativeDelta =>
    match m.delta with
    | some d =>
      if m.kind = .counter ∧ d < 0 then some (.negativeDelta d) else none
    | none => none
  | .value =>
    if m.kind ≠ .gauge then none
    else
      match m.value with
      | none => some .missingValue
      | some v => if v.isFinite then none else some (.nonFiniteValue v)

def updateRules : List Rule := [.id, .kind, .delta, .value]

def readRules : List Rule := [.id, .kind]

/-- The violations of some rules by a metric, in the order of the rules. -/
def Metric.violations (rules : List Rule) (m : Metric) : List Violation :=
  rules.filterMap (Rule.violation? m)

/-- What is wrong with one metric of a request, or with the
request as a whole. -/
inductive Failure where
  /-- A metric, with its place when it came in a batch, and what it broke. -/
  | broken (index : Option Nat) (id : String) (violations : List Violation)
  /-- A request that is not about any metric in particular. -/
  | malformed (reason : String)
  deriving DecidableEq, Repr

def Failure.message : Failure → String
  | .broken index id violations =>
    let place := match index with
      | some i => s!"metric[{i}] {Text.quote id}: "
      | none => s!"metric {Text.quote id}: "
    place ++ ", ".intercalate (violations.map Violation.message)
  | .malformed reason => reason

/-- Everything that is wrong with a request. -/
structure Rejection where
  failures : List Failure
  deriving DecidableEq, Repr

def Rejection.message (r : Rejection) : String :=
  "; ".intercalate (r.failures.map Failure.message)

/-- The rejection of a request that no metric is to blame for. -/
def Rejection.malformed (reason : String) : Rejection :=
  ⟨[.malformed reason]⟩

def Metric.verify (rules : List Rule) (m : Metric) : Except Rejection Unit :=
  match m.violations rules with
  | [] => .ok ()
  | violations => .error ⟨[.broken none m.id violations]⟩

namespace Batch

/-- The failures of the metrics of a batch, the first of them
at the given place. -/
def failuresFrom (rules : List Rule) (start : Nat) : Batch → List Failure
  | [] => []
  | m :: rest =>
    match m.violations rules with
    | [] => failuresFrom rules (start + 1) rest
    | violations =>
      .broken (some start) m.id violations :: failuresFrom rules
        (start + 1) rest

/-- Checks every metric of a batch. -/
def verify (rules : List Rule) (batch : Batch) : Except Rejection Unit :=
  match failuresFrom rules 0 batch with
  | [] => .ok ()
  | failures => .error ⟨failures⟩

end Batch

end Telemetry
