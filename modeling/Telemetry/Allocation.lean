/-!
# Allocation statistics

The memory that a program takes and gives back is counted in bytes and in
blocks.  A block that changes its size is given back with the old size and taken
with the new one.  A request that cannot be met counts for nothing.
-/

namespace Telemetry

/-- What has been counted since the beginning. -/
structure AllocationCounts where
  allocatedBytes : UInt64
  freedBytes : UInt64
  /-- The blocks that were taken. -/
  mallocs : UInt64
  /-- The blocks that were given back. -/
  frees : UInt64
  deriving DecidableEq, Repr

/-- The difference of two counts, zero when the second is the greater one. -/
def monus (a b : UInt64) : UInt64 :=
  if b ≤ a then a - b else 0

namespace AllocationCounts

/-- Nothing has been counted. -/
def zero : AllocationCounts := ⟨0, 0, 0, 0⟩

def take (c : AllocationCounts) (size : UInt64) : AllocationCounts :=
  { c with allocatedBytes := c.allocatedBytes + size, mallocs := c.mallocs + 1 }

def giveBack (c : AllocationCounts) (size : UInt64) : AllocationCounts :=
  { c with freedBytes := c.freedBytes + size, frees := c.frees + 1 }

def liveBytes (c : AllocationCounts) : UInt64 :=
  monus c.allocatedBytes c.freedBytes

def liveObjects (c : AllocationCounts) : UInt64 := monus c.mallocs c.frees

end AllocationCounts

/-- A call of the allocator for a block, which is known by a number, with the
sizes that the caller gives. -/
inductive AllocationCall where
  /-- A block is taken, filled with zeros or not. -/
  | allocate (block : Nat) (size : UInt64) (succeeds : Bool)
  /-- A block of one size is to have another. -/
  | reallocate (block : Nat) (old size : UInt64) (succeeds : Bool)
  | deallocate (block : Nat) (size : UInt64)
  deriving DecidableEq, Repr

/-- What is counted after a call. -/
def AllocationCounts.record (c : AllocationCounts) :
    AllocationCall → AllocationCounts
  | .allocate _ size succeeds => if succeeds then c.take size else c
  | .reallocate _ old size succeeds =>
    if succeeds then (c.giveBack old).take size else c
  | .deallocate _ size => c.giveBack size

/-- The blocks in use with their sizes, and what has been counted. -/
structure Heap where
  blocks : List (Nat × UInt64)
  counts : AllocationCounts
  deriving DecidableEq, Repr

namespace Heap

/-- No block is in use and nothing has been counted. -/
def empty : Heap := ⟨[], .zero⟩

def size? (h : Heap) (block : Nat) : Option UInt64 := h.blocks.lookup block

/-- The blocks in use but one. -/
def without (h : Heap) (block : Nat) : List (Nat × UInt64) :=
  h.blocks.filter (·.1 != block)

/-- The blocks in use after a call. -/
def blocksAfter (h : Heap) : AllocationCall → List (Nat × UInt64)
  | .allocate block size succeeds =>
    if succeeds then (block, size) :: h.blocks else h.blocks
  | .reallocate block _ size succeeds =>
    if succeeds then (block, size) :: h.without block else h.blocks
  | .deallocate block _ => h.without block

/-- Carries out a call. -/
def step (h : Heap) (call : AllocationCall) : Heap :=
  ⟨h.blocksAfter call, h.counts.record call⟩

def run (h : Heap) (calls : List AllocationCall) : Heap := calls.foldl step h

end Heap

end Telemetry
