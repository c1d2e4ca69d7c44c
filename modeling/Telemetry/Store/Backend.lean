import Telemetry.Store.Relational

/-!
# The store of a server

A server keeps its samples in memory or in a database, by its configuration: the
address of a database decides for the database.  A store that is dropped leaves
its files and its database behind for the next one.
-/

namespace Telemetry

/-- What decides about the store. -/
structure StoragePlan where
  /-- The address of a database; an empty one is as good as none. -/
  dsn : Option String
  snapshot : SnapshotPlan
  deriving DecidableEq, Repr

/-- A store of either kind. -/
inductive Storage where
  | memory (store : MemoryStore)
  | relational (store : RelationalStore)

namespace Storage

def openPlan (plan : StoragePlan) (site : Site) : Except StorageError Storage :=
  match plan.dsn.filter (! ·.isEmpty) with
  | some dsn => .relational <$> RelationalStore.connect dsn site
  | none => .memory <$> MemoryStore.new plan.snapshot site

def dispatch {α : Type} (memory : StoreM MemoryStore α)
    (relational : StoreM RelationalStore α) :
    StoreM Storage α
  | .memory m => let (result, m) := memory m; (result, .memory m)
  | .relational r => let (result, r) := relational r; (result, .relational r)

instance : SampleStore Storage where
  updateGauge := fun name value =>
    dispatch (SampleStore.updateGauge name value)
      (SampleStore.updateGauge name value)
  updateCounter := fun name delta =>
    dispatch (SampleStore.updateCounter name delta)
      (SampleStore.updateCounter name delta)
  updateGauges := fun gauges =>
    dispatch (SampleStore.updateGauges gauges) (SampleStore.updateGauges gauges)
  updateCounters := fun counters =>
    dispatch (SampleStore.updateCounters counters)
      (SampleStore.updateCounters counters)
  gauge :=
    fun name => dispatch (SampleStore.gauge name) (SampleStore.gauge name)
  counter :=
    fun name => dispatch (SampleStore.counter name) (SampleStore.counter name)
  gauges := dispatch SampleStore.gauges SampleStore.gauges
  counters := dispatch SampleStore.counters SampleStore.counters
  ping := dispatch SampleStore.ping SampleStore.ping

def name : Storage → String
  | .memory _ => "memory-storage"
  | .relational _ => "db-storage"

def start (now : Nat) : StoreM Storage Unit :=
  dispatch (MemoryStore.start now) RelationalStore.start

def stop : StoreM Storage Unit :=
  dispatch MemoryStore.stop RelationalStore.stop

def shutDown : Storage → Storage
  | .memory m => .memory { m with isShutDown := true }
  | .relational r => .relational { r with cancelled := some r.now }

def elapse (before now : Nat) : Storage → Storage
  | .memory m => .memory (m.elapse before now)
  | .relational r => .relational { r with now := max r.now now }

def site : Storage → Site
  | .memory m => m.site
  | .relational r => r.site

def changeSite (change : Site → Site) : Storage → Storage
  | .memory m => .memory { m with site := change m.site }
  | .relational r => .relational { r with site := change r.site }

/-- What a store leaves behind when it is dropped. -/
def leave : Storage → Site
  | .memory m => m.site
  | .relational r =>
    { r.site with
      databases := r.site.databases.insert r.name r.database.tables }

def migrateDown : Storage → Storage
  | .memory m => .memory m
  | .relational r => .relational (r.changeTables fun _ => .none)

end Storage

end Telemetry
