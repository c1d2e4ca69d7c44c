/-!
# Pools of reusable objects

A pool keeps a bounded number of objects for reuse.  An object is reset when it
is handed out, so that nobody sees what the last holder left; the object that
has been parked longest goes first; one that comes back to a full pool is
dropped.
-/

namespace Telemetry

/-- How a pool makes and prepares its objects. -/
structure PoolPlan (α : Type) where
  /-- The number of parked objects asked for; at least one is always kept. -/
  capacity : Nat
  /-- The object that is built after a number of others. -/
  make : Nat → α
  /-- Prepares an object for its next holder. -/
  reset : α → α

/-- An object with the number of objects that were built before it. -/
structure Pooled (α : Type) where
  serial : Nat
  content : α
  deriving DecidableEq, Repr

/-- The state of a pool: the parked objects, the one parked longest first, how
many objects were built, and the objects that were dropped. -/
structure Pool (α : Type) where
  parked : List (Pooled α)
  built : Nat
  dropped : List (Pooled α)

namespace Pool

variable {α : Type}

/-- A pool that has built nothing yet. -/
def empty : Pool α := ⟨[], 0, []⟩

/-- The greatest number of parked objects. -/
def limit (plan : PoolPlan α) : Nat := max plan.capacity 1

/-- Hands out the object parked longest, or a fresh one, after resetting it. -/
def acquire (plan : PoolPlan α) (pool : Pool α) : Pooled α × Pool α :=
  match pool.parked with
  | item :: parked =>
    ({ item with content := plan.reset item.content }, { pool with parked })
  | [] =>
    (⟨pool.built, plan.reset (plan.make pool.built)⟩,
      { pool with built := pool.built + 1 })

/-- Takes an object back: parks it, or drops it when the pool is full. -/
def release (plan : PoolPlan α) (item : Pooled α) (pool : Pool α) : Pool α :=
  if pool.parked.length < limit plan then
    { pool with parked := pool.parked ++ [item] }
  else { pool with dropped := item :: pool.dropped }

end Pool

/-- A pool and its holders: the object behind each handle, in the order in which
the handles were given out, none once it has been given back. -/
structure PoolUse (α : Type) where
  pool : Pool α
  held : List (Option (Pooled α))

/-- What a holder does. -/
inductive PoolStep (α : Type) where
  | acquire
  | use (handle : Nat) (change : α → α)
  | release (handle : Nat)

namespace PoolUse

variable {α : Type}

/-- A fresh pool without holders. -/
def start : PoolUse α := ⟨.empty, []⟩

def object? (s : PoolUse α) (handle : Nat) : Option (Pooled α) :=
  s.held[handle]?.join

/-- Carries out one step; a handle that holds nothing does nothing. -/
def step (plan : PoolPlan α) (s : PoolUse α) : PoolStep α → PoolUse α
  | .acquire =>
    let (item, pool) := s.pool.acquire plan
    ⟨pool, s.held ++ [some item]⟩
  | .use handle change =>
    match s.object? handle with
    | some item =>
      { s with
        held := s.held.set handle
          (some { item with content := change item.content }) }
    | none => s
  | .release handle =>
    match s.object? handle with
    | some item => ⟨s.pool.release plan item, s.held.set handle none⟩
    | none => s

/-- Carries out steps one after the other. -/
def run (plan : PoolPlan α) (s : PoolUse α) (steps : List (PoolStep α)) :
    PoolUse α :=
  steps.foldl (step plan) s

end PoolUse

end Telemetry
