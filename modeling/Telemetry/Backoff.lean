/-!
# Retrying with a schedule of delays

An operation is called until it succeeds, fails for good, or has been called
once more than there are delays.  Between two calls the next delay passes,
unless a cancellation comes first; the last error is the answer in every case of
failure.  Operations take no time of their own.
-/

namespace Telemetry

/-- The delays between successive calls, in milliseconds. -/
structure Backoff where
  delays : List Nat
  deriving DecidableEq, Repr

namespace Backoff

/-- The delays of one, three and five seconds. -/
def standard : Backoff := ⟨[1000, 3000, 5000]⟩

/-- The greatest number of calls. -/
def attempts (b : Backoff) : Nat := b.delays.length + 1

/-- What became of an operation that was retried: its last result, the
state it left, the instants of its calls, and the instant when it was given
up or had succeeded. -/
structure Outcome (ε α σ : Type) where
  result : Except ε α
  state : σ
  calls : List Nat
  finish : Nat

/-- Whether a cancellation ends a wait from `now` for `delay`: the
instant when it does. -/
def interruption (cancel : Option Nat) (now delay : Nat) : Option Nat :=
  match cancel with
  | some c =>
    if c ≤ now then some now else if c < now + delay then some c else none
  | none => none

/-- Calls an operation on a state with the given delays left, the
first call being now. -/
def run {ε α σ : Type} (cancel : Option Nat) (retryable : ε → Bool)
    (op : σ → Except ε α × σ) : List Nat → Nat → σ → Outcome ε α σ
  | delays, now, s =>
    let (result, s) := op s
    match result, delays with
    | .ok a, _ => ⟨.ok a, s, [now], now⟩
    | .error e, [] => ⟨.error e, s, [now], now⟩
    | .error e, delay :: delays =>
      if !retryable e then ⟨.error e, s, [now], now⟩
      else
        match interruption cancel now delay with
        | some c => ⟨.error e, s, [now], c⟩
        | none =>
          let later := run cancel retryable op delays (now + delay) s
          { later with calls := now :: later.calls }

def retry {ε α σ : Type} (b : Backoff) (cancel : Option Nat)
    (retryable : ε → Bool) (op : σ → Except ε α × σ) (now : Nat) (s : σ) :
    Outcome ε α σ :=
  run cancel retryable op b.delays now s

end Backoff

end Telemetry
