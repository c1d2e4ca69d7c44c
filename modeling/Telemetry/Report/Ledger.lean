import Telemetry.Metric.Basic

/-!
# Poll counts and chunks

An agent counts its polls from its start, while a server adds up what it is
sent.  The ledger remembers the count that was reported last and turns the count
of a batch into the increment since then; it forgets the increment of a batch
that did not arrive, so that the next one carries it.  A batch is sent in chunks
of about the same length.
-/

namespace Telemetry

/-- The count of polls that was reported last, and the one before the batch
that is on its way. -/
structure PollLedger where
  previous : Int64
  latest : Int64
  deriving DecidableEq, Repr

namespace PollLedger

/-- Nothing was reported. -/
def start : PollLedger := ⟨0, 0⟩

def isPollCount (m : Metric) : Bool :=
  m.kind == .counter && m.id == Metric.pollCount

/-- Replaces the first count of polls in a batch by its increment, if there is
one; a count that is absent stands for the latest. -/
def book? (l : PollLedger) : Batch → Option (Batch × PollLedger)
  | [] => none
  | m :: rest =>
    if isPollCount m then
      let count := m.delta.getD l.latest
      some ({ m with delta := some (count - l.latest) } :: rest,
        ⟨l.latest, count⟩)
    else (book? l rest).map fun (batch, l) => (m :: batch, l)

/-- Forgets the increment of the batch that is on its way. -/
def rollback (l : PollLedger) : PollLedger := { l with latest := l.previous }

end PollLedger

/-- Cuts `parts` parts of a length from the front and leaves the rest
as the last part. -/
def cutParts {α : Type} (length : Nat) : Nat → List α → List (List α)
  | 0, rest => [rest]
  | parts + 1, rest =>
    rest.take length :: cutParts length parts (rest.drop length)

/-- Splits a list into at most `n` parts, of which the last takes the remainder;
zero counts as one. -/
def partition {α : Type} (n : Nat) (xs : List α) : List (List α) :=
  let n := max n 1
  if xs.length ≤ n then xs.map fun x => [x]
  else cutParts (xs.length / n) (n - 1) xs

end Telemetry
