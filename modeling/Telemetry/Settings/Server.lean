import Telemetry.Settings.Source
import Telemetry.Store.Backend

/-!
# Settings of the server

Where the server listens, where it keeps its samples, and how it is protected.
-/

namespace Telemetry

/-- The settings of a server. -/
structure ServerSettings where
  address : String
  grpcAddress : Option String
  /-- The seconds between two snapshots; zero saves at every update. -/
  storeInterval : Nat
  snapshotPath : Option String
  restores : Bool
  dsn : Option String
  secret : Option String
  privateKeyPath : Option String
  trustedSubnet : Option String
  logLevel : String
  deriving DecidableEq, Repr

namespace ServerSettings

/-- The settings of a server that is told nothing. -/
def standard : ServerSettings where
  address := "localhost:8080"
  grpcAddress := none
  storeInterval := 300
  snapshotPath := some "/tmp/metrics-db.json"
  restores := true
  dsn := none
  secret := none
  privateKeyPath := none
  trustedSubnet := none
  logLevel := "info"

/-- The settings in a configuration file; keys that are not
known do not matter. -/
def ofTable? (t : Toml.Table) : Option ServerSettings := do
  let text (key : String) := t.field? key Toml.Value.text?
  return {
    address := (← text "address").getD standard.address
    grpcAddress := ← text "grpc_address"
    storeInterval :=
      (← t.field? "store_interval_secs" Toml.Value.count?).getD
        standard.storeInterval
    snapshotPath := (← text "file_storage_path").or standard.snapshotPath
    restores := (← t.field? "restore" Toml.Value.flag?).getD standard.restores
    dsn := ← text "database_dsn"
    secret := ← text "key"
    privateKeyPath := ← text "crypto_key"
    trustedSubnet := ← text "trusted_subnet"
    logLevel := (← text "log_level").getD standard.logLevel }

def parameters : List Parameter := [
  Settings.fileParameter,
  ⟨"address", some 'a', "ADDRESS", .text⟩,
  ⟨"grpc-address", some 'g', "GRPC_ADDRESS", .text⟩,
  ⟨"store-interval", some 'i', "STORE_INTERVAL", .count⟩,
  ⟨"file-storage-path", some 'f', "FILE_STORAGE_PATH", .text⟩,
  ⟨"restore", some 'r', "RESTORE", .flag⟩,
  ⟨"database-dsn", some 'd', "DATABASE_DSN", .text⟩,
  ⟨"key", some 'k', "KEY", .text⟩,
  ⟨"crypto-key", none, "CRYPTO_KEY", .path⟩,
  ⟨"trusted-subnet", some 't', "TRUSTED_SUBNET", .text⟩,
  ⟨"log-level", none, "LOG_LVL", .text⟩]

/-- The settings with those that are given in place of the others. -/
def override (s : ServerSettings) (given : Given) : ServerSettings where
  address := (given.text? "address").getD s.address
  grpcAddress := (given.text? "grpc-address").or s.grpcAddress
  storeInterval := (given.count? "store-interval").getD s.storeInterval
  snapshotPath := (given.text? "file-storage-path").or s.snapshotPath
  restores := (given.flag? "restore").getD s.restores
  dsn := (given.text? "database-dsn").or s.dsn
  secret := (given.text? "key").or s.secret
  privateKeyPath := (given.text? "crypto-key").or s.privateKeyPath
  trustedSubnet := (given.text? "trusted-subnet").or s.trustedSubnet
  logLevel := (given.text? "log-level").getD s.logLevel

/-- The settings without those that say nothing. -/
def normalize (s : ServerSettings) : ServerSettings :=
  { s with
    grpcAddress := Settings.unlessBlank s.grpcAddress
    snapshotPath := Settings.unlessEmpty s.snapshotPath
    dsn := Settings.unlessBlank s.dsn
    secret := Settings.unlessEmpty s.secret
    privateKeyPath := Settings.unlessEmpty s.privateKeyPath
    trustedSubnet := Settings.unlessBlank s.trustedSubnet }

def trustedNet (s : ServerSettings) : Except SettingsError (Option Subnet) :=
  match Telemetry.trustedSubnet s.trustedSubnet with
  | .ok net => .ok net
  | .error _ => .error (.subnet (s.trustedSubnet.getD ""))

/-- Refuses settings that no server can run with. -/
def validate (s : ServerSettings) : Except SettingsError Unit := do
  if Text.isBlankText s.address then throw .noListenAddress
  let _ ← s.trustedNet

/-- The settings by the command line, the environment and the
configuration file. -/
def resolve (disk : Disk) (environment : List (String × String))
    (arguments : List String) : Except SettingsError ServerSettings := do
  let given ← (CommandLine.read parameters environment arguments).mapError
    .commandLine
  let s :=
    ((← Settings.ofFile standard ofTable? disk given).override given).normalize
  s.validate
  return s

/-- What the settings say about the store. -/
def storagePlan (s : ServerSettings) : StoragePlan :=
  ⟨s.dsn, ⟨s.snapshotPath, s.storeInterval * 1000, s.restores⟩⟩

end ServerSettings

end Telemetry
