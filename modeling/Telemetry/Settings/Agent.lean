import Telemetry.Settings.Source

/-!
# Settings of the agent

Where the agent sends its reports, how often it polls and reports, how many
requests it makes at a time, and how reports are protected.
-/

namespace Telemetry

/-- The settings of an agent. -/
structure AgentSettings where
  address : String
  grpcAddress : Option String
  /-- The seconds between two polls. -/
  pollInterval : Nat
  /-- The seconds between two reports. -/
  reportInterval : Nat
  /-- The greatest number of requests at a time. -/
  rateLimit : Nat
  secret : Option String
  publicKeyPath : Option String
  logLevel : String
  deriving DecidableEq, Repr

namespace AgentSettings

/-- The settings of an agent that is told nothing. -/
def standard : AgentSettings where
  address := "localhost:8080"
  grpcAddress := none
  pollInterval := 2
  reportInterval := 10
  rateLimit := 1
  secret := none
  publicKeyPath := none
  logLevel := "info"

/-- The settings in a configuration file; keys that are not
known do not matter. -/
def ofTable? (t : Toml.Table) : Option AgentSettings := do
  let text (key : String) := t.field? key Toml.Value.text?
  let count (key : String) := t.field? key Toml.Value.count?
  return {
    address := (← text "address").getD standard.address
    grpcAddress := ← text "grpc_address"
    pollInterval := (← count "poll_interval_secs").getD standard.pollInterval
    reportInterval :=
      (← count "report_interval_secs").getD standard.reportInterval
    rateLimit := (← count "rate_limit").getD standard.rateLimit
    secret := ← text "key"
    publicKeyPath := ← text "crypto_key"
    logLevel := (← text "log_level").getD standard.logLevel }

def parameters : List Parameter := [
  Settings.fileParameter,
  ⟨"address", some 'a', "ADDRESS", .text⟩,
  ⟨"grpc-address", some 'g', "GRPC_ADDRESS", .text⟩,
  ⟨"poll-interval", some 'p', "POLL_INTERVAL", .count⟩,
  ⟨"report-interval", some 'r', "REPORT_INTERVAL", .count⟩,
  ⟨"rate-limit", some 'l', "RATE_LIMIT", .count⟩,
  ⟨"key", some 'k', "KEY", .text⟩,
  ⟨"crypto-key", none, "CRYPTO_KEY", .path⟩,
  ⟨"log-level", none, "LOG_LVL", .text⟩]

/-- The settings with those that are given in place of the others. -/
def override (s : AgentSettings) (given : Given) : AgentSettings where
  address := (given.text? "address").getD s.address
  grpcAddress := (given.text? "grpc-address").or s.grpcAddress
  pollInterval := (given.count? "poll-interval").getD s.pollInterval
  reportInterval := (given.count? "report-interval").getD s.reportInterval
  rateLimit := (given.count? "rate-limit").getD s.rateLimit
  secret := (given.text? "key").or s.secret
  publicKeyPath := (given.text? "crypto-key").or s.publicKeyPath
  logLevel := (given.text? "log-level").getD s.logLevel

/-- The settings without those that say nothing. -/
def normalize (s : AgentSettings) : AgentSettings :=
  { s with
    grpcAddress := Settings.unlessBlank s.grpcAddress
    secret := Settings.unlessEmpty s.secret
    publicKeyPath := Settings.unlessEmpty s.publicKeyPath }

/-- Refuses settings that no agent can run with. -/
def validate (s : AgentSettings) : Except SettingsError Unit := do
  if s.rateLimit = 0 then throw .noWorkers
  if s.pollInterval = 0 then throw .noPollInterval
  if s.reportInterval < s.pollInterval then
    throw (.shortReportInterval s.reportInterval s.pollInterval)
  if Text.isBlankText s.address then throw .noServerAddress

/-- The settings by the command line, the environment and the
configuration file. -/
def resolve (disk : Disk) (environment : List (String × String))
    (arguments : List String) : Except SettingsError AgentSettings := do
  let given ← (CommandLine.read parameters environment arguments).mapError
    .commandLine
  let s :=
    ((← Settings.ofFile standard ofTable? disk given).override given).normalize
  s.validate
  return s

end AgentSettings

end Telemetry
