import Telemetry.Backoff
import Telemetry.Store.Memory

/-!
# The store in a database

Every operation is retried with the standard delays for as long as its failure
may pass by itself.  A list of rows is written in one transaction, and the
transaction as a whole is what is retried: it either applies all rows or leaves
the tables as they were.  How a database fails is given attempt by attempt.
-/

namespace Telemetry

/-- What fails in one attempt. -/
structure Trouble where
  /-- The failure to begin, or to run the only statement. -/
  beginning : Option DatabaseError
  /-- The failures of the statements of a transaction. -/
  statement : Nat → Option DatabaseError
  commit : Option DatabaseError

/-- An attempt in which nothing fails by itself. -/
def Trouble.none : Trouble := ⟨.none, fun _ => .none, .none⟩

/-- A database as its store sees it: the tables, whether there are connections,
and what fails in each attempt that is still to come. -/
structure Database where
  tables : Tables
  isOpen : Bool
  attempts : Nat
  trouble : Nat → Trouble

namespace Database

/-- Begins an attempt. -/
def begin (d : Database) : Except DatabaseError Trouble × Database :=
  let trouble := d.trouble d.attempts
  let d := { d with attempts := d.attempts + 1 }
  if !d.isOpen then (.error .acquireClosed, d)
  else
    match trouble.beginning with
    | some e => (.error e, d)
    | none => (.ok trouble, d)

def runStatement {α : Type}
    (statement : Tables → Except DatabaseCause (α × Tables)) (d : Database) :
    Except DatabaseError α × Database :=
  match d.begin with
  | (.error e, d) => (.error e, d)
  | (.ok _, d) =>
    match statement d.tables with
    | .ok (a, tables) => (.ok a, { d with tables })
    | .error cause => (.error (.query cause), d)

/-- Runs the statements of a transaction on the tables, the first of them having
the given number. -/
def runAll (trouble : Nat → Option DatabaseError) :
    Nat → List (Tables → Except DatabaseCause Tables) → Tables →
      Except DatabaseError Tables
  | _, [], tables => .ok tables
  | i, statement :: rest, tables =>
    match trouble i with
    | some e => .error e
    | none =>
      match statement tables with
      | .ok tables => runAll trouble (i + 1) rest tables
      | .error cause => .error (.execute cause)

/-- Runs statements as a transaction: what they did is kept only when it is
committed.  A failure to roll back is only noted. -/
def runTransaction (statements : List (Tables → Except DatabaseCause Tables))
    (d : Database) : Except DatabaseError Unit × Database :=
  match d.begin with
  | (.error e, d) => (.error e, d)
  | (.ok trouble, d) =>
    match runAll trouble.statement 0 statements d.tables, trouble.commit with
    | .error e, _ => (.error e, d)
    | .ok _, some e => (.error e, d)
    | .ok tables, none => (.ok (), { d with tables })

end Database

/-- A store in a database. -/
structure RelationalStore where
  database : Database
  /-- The name of the database. -/
  name : String
  backoff : Backoff
  now : Nat
  /-- The instant from which on nothing is tried again. -/
  cancelled : Option Nat
  site : Site

namespace RelationalStore

def ofTables (name : String) (tables : Tables) (site : Site) :
    RelationalStore :=
  ⟨⟨tables, true, 0, fun _ => .none⟩, name, .standard, 0, none, site⟩

def retry {α : Type} (op : Database → Except StorageError α × Database) :
    StoreM RelationalStore α := fun r =>
  let outcome :=
    r.backoff.retry r.cancelled StorageError.isTransient op r.now r.database
  (outcome.result, { r with database := outcome.state, now := outcome.finish })

def statement {α : Type} (run : Tables → Except DatabaseCause (α × Tables)) :
    StoreM RelationalStore α :=
  retry fun d =>
    let (result, d) := d.runStatement run
    (result.mapError .database, d)

def query {α : Type} (run : Tables → Except DatabaseCause α) :
    StoreM RelationalStore α :=
  statement fun tables => (·, tables) <$> run tables

/-- Retries a query for a row that must exist. -/
def lookup {α : Type} (kind : Kind) (name : String)
    (run : Tables → Except DatabaseCause (Option α)) :
    StoreM RelationalStore α :=
  retry fun d =>
    match d.runStatement fun tables => (·, tables) <$> run tables with
    | (.ok (some a), d) => (.ok a, d)
    | (.ok none, d) => (.error (.notFound kind name), d)
    | (.error e, d) => (.error (.database e), d)

/-- Retries a transaction; nothing at all is done for no rows. -/
def transaction (statements : List (Tables → Except DatabaseCause Tables)) :
    StoreM RelationalStore Unit :=
  if statements.isEmpty then return
  else
    retry fun d =>
      let (result, d) := d.runTransaction statements
      (result.mapError .database, d)

def updateGauge (name : String) (value : Binary64) :
    StoreM RelationalStore Binary64 :=
  statement (·.upsertGauge name value)

/-- Adds to a counter; the total must be one. -/
def updateCounter (name : String) (delta : Int64) :
    StoreM RelationalStore Int64 :=
  retry fun d =>
    match d.runStatement (·.upsertCounter name delta) with
    | (.ok cell, d) =>
      (cell.read.mapError fun cause => .database (.query cause), d)
    | (.error e, d) => (.error (.database e), d)

def updateGauges (gauges : List (String × Binary64)) :
    StoreM RelationalStore Unit :=
  transaction (gauges.map fun g tables => (·.2) <$> tables.upsertGauge g.1 g.2)

def updateCounters (counters : List (String × Int64)) :
    StoreM RelationalStore Unit :=
  transaction
    (counters.map fun c tables => (·.2) <$> tables.upsertCounter c.1 c.2)

def ping : StoreM RelationalStore Unit := fun r =>
  if r.database.isOpen then (.ok (), r)
    else (.error (.database .acquireClosed), r)

instance : SampleStore RelationalStore where
  updateGauge := updateGauge
  updateCounter := updateCounter
  updateGauges := updateGauges
  updateCounters := updateCounters
  gauge := fun name => lookup .gauge name (·.selectGauge name)
  counter := fun name => lookup .counter name (·.selectCounter name)
  gauges := query Tables.allGauges
  counters := query Tables.allCounters
  ping := ping

def changeTables (change : Tables → Tables) (r : RelationalStore) :
    RelationalStore :=
  { r with database := { r.database with tables := change r.database.tables } }

/-- Starts the store: migrates the database. -/
def start : StoreM RelationalStore Unit := do
  ping
  modify (changeTables Tables.migrate)

/-- Stops the store: nothing is tried again, and the connections are closed. -/
def stop : StoreM RelationalStore Unit :=
  modify fun r =>
    { r with
      cancelled := some (min r.now (r.cancelled.getD r.now))
      database := { r.database with isOpen := false } }

/-- How the address of a database begins that can be used. -/
def schemes : List String := ["postgres://", "postgresql://", "sqlite:"]

/-- The text before the first colon. -/
def schemeOf (dsn : String) : String :=
  String.ofList (dsn.toList.takeWhile (· != ':'))

/-- The name of an embedded database and the parameters of its address. -/
def nameAndParameters (dsn : String) : String × List String :=
  let chars := dsn.toList.drop "sqlite:".length
  let chars := if "//".toList.isPrefixOf chars then chars.drop 2 else chars
  let name := chars.takeWhile (· != '?')
  (String.ofList name,
    Text.splitOn '&' (String.ofList (chars.drop (name.length + 1))))

/-- Connects to the database of an address.  A private database begins empty;
one that is a file must exist unless the address asks for it to be made; servers
are out of reach. -/
def connect (dsn : String) (site : Site) :
    Except StorageError RelationalStore :=
  if !schemes.any (dsn.startsWith ·) then
    .error (.permanent s!"unsupported database DSN scheme: {schemeOf dsn}")
  else if !dsn.startsWith "sqlite:" then
    .error (.database (.connect (.io "Connection refused (os error 111)")))
  else
    let (name, parameters) := nameAndParameters dsn
    let isPrivate :=
      name == "" || name == ":memory:" || parameters.contains "mode=memory"
    let known := if isPrivate then none else site.databases.find? name
    match known with
    | some tables => .ok (ofTables name tables site)
    | none =>
      if isPrivate || parameters.contains "mode=rwc" then
        .ok (ofTables name .none site)
      else
        .error (.database (.connect
          (.reported (some "14") "(code: 14) unable to open database file")))

end RelationalStore

end Telemetry
