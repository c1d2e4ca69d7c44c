/-!
# Starting and stopping components

Components are started in the order in which they were added.  When one fails,
or when shutdown is requested after all have started, the token that they share
is cancelled and those that run are stopped in reverse order.  A start takes no
time, and may ask for the shutdown of everything at once or after a while.
-/

namespace Telemetry

/-- What a start does besides succeeding or failing. -/
structure Started (σ : Type) where
  outcome : Except String Unit
  world : σ
  /-- The milliseconds after which the component requests shutdown;
  zero means at once. -/
  shutdownAfter : Option Nat

/-- A component that acts on a world. -/
structure Component (σ : Type) where
  name : String
  start : σ → Started σ
  stop : σ → Except String Unit × σ

namespace Supervisor

/-- What is seen of a run. -/
inductive Event where
  | start (name : String)
  /-- A component requests shutdown some time after it has started. -/
  | request
  | stop (name : String)
  deriving DecidableEq, Repr

/-- A component that failed to start, and how. -/
structure StartError where
  component : String
  reason : String
  deriving DecidableEq, Repr

/-- The text of a failure to start, its cause after a colon. -/
def StartError.message (e : StartError) : String :=
  s!"start {e.component}: {e.reason}"

/-- What happens in a run; a component is started or stopped in the
world that it finds. -/
inductive Moment (σ : Type) where
  | started (component : Component σ) (world : σ)
  /-- A component requests shutdown some time after it has started. -/
  | requested
  /-- The token is cancelled. -/
  | cancelled
  | stopped (component : Component σ) (world : σ)

namespace Moment

variable {σ : Type}

def event? : Moment σ → Option Event
  | .started c _ => some (.start c.name)
  | .requested => some .request
  | .cancelled => none
  | .stopped c _ => some (.stop c.name)

def isCancellation : Moment σ → Bool
  | .cancelled => true
  | _ => false

/-- The instant at which a component that is started requests shutdown. -/
def request? : Moment σ → Option Nat
  | .started c world => (c.start world).shutdownAfter
  | _ => none

end Moment

/-- The world, and what has happened so far. -/
structure State (σ : Type) where
  world : σ
  moments : List (Moment σ)

namespace State

variable {σ : Type}

def events (s : State σ) : List Event := s.moments.filterMap Moment.event?

/-- The instants at which components request shutdown. -/
def requests (s : State σ) : List Nat := s.moments.filterMap Moment.request?

/-- Whether the token is cancelled. -/
def cancelled (s : State σ) : Bool := s.moments.any Moment.isCancellation

def note (s : State σ) (m : Moment σ) : State σ :=
  { s with moments := s.moments ++ [m] }

/-- Cancels the token, unless it is cancelled already. -/
def cancel (s : State σ) : State σ :=
  if s.cancelled then s else s.note .cancelled

/-- The state in which a run begins, its token cancelled if shutdown was
requested beforehand. -/
def initial (requested : Option Nat) (world : σ) : State σ :=
  let s : State σ := ⟨world, []⟩
  if requested = some 0 then s.cancel else s

/-- Starts a component, which may cancel the token on the way. -/
def start (s : State σ) (c : Component σ) : State σ :=
  let started := c.start s.world
  let s := { s.note (.started c s.world) with world := started.world }
  if started.shutdownAfter = some 0 then s.cancel else s

/-- Ends the wait for a request; that of a component is noted. -/
def awaken (s : State σ) (fromComponent : Bool) : State σ :=
  if fromComponent then s.note .requested else s

/-- Stops a component, whatever its stop answers. -/
def stop (s : State σ) (c : Component σ) : State σ :=
  { s.note (.stopped c s.world) with world := (c.stop s.world).2 }

end State

variable {σ : Type}

/-- Starts components in order; gives those that run, the last one first, and
the failure that ended it. -/
def startAll (running : List (Component σ)) (s : State σ) :
    List (Component σ) → List (Component σ) × Option StartError × State σ
  | [] => (running, none, s)
  | c :: rest =>
    match (c.start s.world).outcome with
    | .ok () => startAll (c :: running) (s.start c) rest
    | .error reason => (running, some ⟨c.name, reason⟩, s.start c)

/-- Cancels the token and stops components in the order given. -/
def shutDown (s : State σ) (running : List (Component σ)) : State σ :=
  running.foldl State.stop s.cancel

/-- What a run has come to: how it ended, none while it goes
on, and the instant. -/
structure Run (σ : Type) where
  state : State σ
  result : Option (Except StartError Unit)
  elapsed : Nat

/-- Whether the token is cancelled. -/
def Run.cancelled (r : Run σ) : Bool := r.state.cancelled

/-- Runs components until they have been stopped or `horizon` milliseconds
have passed; `requested` is the instant of a request from outside, zero if
it came beforehand. -/
def run (components : List (Component σ)) (requested : Option Nat)
    (horizon : Nat) (world : σ) : Run σ :=
  let (running, failure, s) :=
    startAll [] (State.initial requested world) components
  match failure with
  | some e => ⟨shutDown s running, some (.error e), 0⟩
  | none =>
    match (requested.toList ++ s.requests).min? with
    | none => ⟨s, none, horizon⟩
    | some first =>
      if horizon ≤ first then ⟨s, none, horizon⟩
      else
        let fromComponent := 0 < first && requested != some first
        ⟨shutDown (s.awaken fromComponent) running, some (.ok ()), first⟩

end Supervisor

end Telemetry
