import Telemetry.Store.Snapshot
import Telemetry.Store.Tables

/-!
# The store in memory

Samples are held in memory and may be saved to a snapshot file.  With an
interval of zero every change is followed by a save, whose failure does not undo
the change; otherwise the store saves at the end of each interval and once more
when it stops.  A save takes a copy of the samples and then replaces the bytes
of the file.
-/

namespace Telemetry

/-- What outlives a store: the files, and the databases that
no store has open. -/
structure Site where
  disk : Disk
  databases : NameMap Tables

/-- A site without anything on it. -/
def Site.empty : Site := ⟨.empty, .empty⟩

/-- How a store in memory keeps snapshots. -/
structure SnapshotPlan where
  /-- The path of the file; nothing is saved when it is absent or empty. -/
  path : Option String
  /-- The milliseconds between saves; zero means after every change. -/
  interval : Nat
  /-- Whether a start takes over what the file holds. -/
  restores : Bool
  deriving DecidableEq, Repr

/-- A store in memory. -/
structure MemoryStore where
  samples : Samples
  file : Option SnapshotFile
  interval : Nat
  restores : Bool
  /-- The instant when the saver that a stop ends was started. -/
  saver : Option Nat
  /-- The instants when savers were started that only a shutdown ends. -/
  abandoned : List Nat
  /-- Whether shutdown has been requested. -/
  isShutDown : Bool
  site : Site

namespace MemoryStore

/-- A store without samples that saves to the given file. -/
def ofFile (file : Option SnapshotFile) (interval : Nat) (restores : Bool)
    (site : Site) : MemoryStore :=
  ⟨.empty, file, interval, restores, none, [], false, site⟩

/-- A store that saves nothing. -/
def ephemeral (site : Site) : MemoryStore := ofFile none 0 false site

/-- A store by its plan; the file is opened. -/
def new (plan : SnapshotPlan) (site : Site) : Except StorageError MemoryStore :=
  match plan.path.filter (! ·.isEmpty) with
  | none => .ok (ofFile none plan.interval plan.restores site)
  | some path =>
    match SnapshotFile.openAt site.disk path with
    | .ok (file, disk) =>
      .ok (ofFile (some file) plan.interval plan.restores { site with disk })
    | .error e => .error (.io e)

/-- Whether every change is saved at once. -/
def isSync (m : MemoryStore) : Bool := m.interval == 0

def mutate (change : Samples → Samples) (m : MemoryStore) : MemoryStore :=
  { m with samples := change m.samples }

/-- The bytes that a save is about to write. -/
def capture (m : MemoryStore) : Bytes := m.samples.toJson

/-- Replaces the bytes of the file, if there is one. -/
def replace (bytes : Bytes) (m : MemoryStore) :
    Except StorageError MemoryStore :=
  match m.file with
  | none => .ok m
  | some file =>
    match file.save bytes m.site.disk with
    | .ok disk => .ok { m with site := { m.site with disk } }
    | .error e => .error (.io e)

/-- Saves the samples. -/
def save : StoreM MemoryStore Unit := fun m =>
  match m.replace m.capture with
  | .ok m => (.ok (), m)
  | .error e => (.error e, m)

def isBlankByte (b : UInt8) : Bool :=
  b == 0x20 || b == 0x09 || b == 0x0A || b == 0x0C || b == 0x0D

/-- What the samples become when the given bytes are restored over them. -/
def restored (samples : Samples) (bytes : Bytes) :
    Except StorageError Samples :=
  if bytes.all isBlankByte then .ok samples
  else (Samples.ofJson bytes).mapError .json

/-- Takes over what the file holds; a blank file changes nothing. -/
def restore : StoreM MemoryStore Unit := fun m =>
  match m.file with
  | none => (.ok (), m)
  | some file =>
    match file.load m.site.disk with
    | .error e => (.error (.io e), m)
    | .ok bytes =>
      match restored m.samples bytes with
      | .ok samples => (.ok (), { m with samples })
      | .error e => (.error e, m)

/-- Changes the samples, and saves them if every change is saved. -/
def write (change : Samples → Samples) : StoreM MemoryStore Unit := fun m =>
  let m := m.mutate change
  (.ok (), if m.isSync then (save m).2 else m)

def updateGauge (name : String) (value : Binary64) :
    StoreM MemoryStore Binary64 := do
  write (·.setGauge name value)
  return value

def updateCounter (name : String) (delta : Int64) :
    StoreM MemoryStore Int64 := do
  write (·.addCounter name delta)
  return (← get).samples.total name

/-- Replaces gauges; an empty list is not a change. -/
def updateGauges (gauges : List (String × Binary64)) :
    StoreM MemoryStore Unit :=
  if gauges.isEmpty then return else write (·.setGauges gauges)

/-- Adds to counters; an empty list is not a change. -/
def updateCounters (counters : List (String × Int64)) :
    StoreM MemoryStore Unit :=
  if counters.isEmpty then return else write (·.addCounters counters)

def gauge (name : String) : StoreM MemoryStore Binary64 := do
  match (← get).samples.gauges.find? name with
  | some value => return value
  | none => throw (.notFound .gauge name)

def counter (name : String) : StoreM MemoryStore Int64 := do
  match (← get).samples.counters.find? name with
  | some total => return total
  | none => throw (.notFound .counter name)

instance : SampleStore MemoryStore where
  updateGauge := updateGauge
  updateCounter := updateCounter
  updateGauges := updateGauges
  updateCounters := updateCounters
  gauge := gauge
  counter := counter
  gauges := return (← get).samples.gauges.entries
  counters := return (← get).samples.counters.entries
  ping := return

def clearFile : StoreM MemoryStore Unit := fun m =>
  match m.replace [] with
  | .ok m => (.ok (), m)
  | .error e => (.error e, m)

/-- Starts the store: takes over or empties the file, and starts a saver if
there is an interval. -/
def start (now : Nat) : StoreM MemoryStore Unit := do
  let m ← get
  if m.file.isNone then return
  if m.restores then restore else clearFile
  unless m.isSync do
    modify fun m =>
      { m with saver := some now, abandoned := m.saver.toList ++ m.abandoned }

/-- Stops the store: ends the saver, saves once more and closes the file. -/
def stop : StoreM MemoryStore Unit := do
  modify fun m => { m with saver := none }
  if (← get).file.isSome then
    save
    modify fun m => { m with file := m.file.map (·.close) }

/-- Whether a saver that was started at an instant saves at `before` or later
but before `now`. -/
def isDue (interval before now started : Nat) : Bool :=
  0 < interval &&
    (before - started - 1) / interval < (now - started - 1) / interval

/-- Lets time pass: savers save at the ends of their intervals, and failures are
passed over.  What is due at the very end is left for the next time. -/
def elapse (before now : Nat) (m : MemoryStore) : MemoryStore :=
  let savers := m.saver.toList ++ m.abandoned
  if !m.isShutDown && savers.any (isDue m.interval before now) then
    (save m).2 else m

end MemoryStore

end Telemetry
