import Telemetry.Settings.Server
import Telemetry.Settings.Agent

/-!
# The command line

The first argument names a program, `server` or `agent`, and the others are its
parameters.  The settings that it would run with are shown one a line.  Where
there are none the reason is given, and the exit code tells a fault of the
command line from every other failure.
-/

namespace Telemetry

/-- A program that has settings. -/
inductive Program where
  | server
  | agent
  deriving DecidableEq, Repr

namespace Program

def ofName? (name : String) : Option Program :=
  if name = "server" then some .server
  else if name = "agent" then some .agent
  else none

def parameters : Program → List Parameter
  | .server => ServerSettings.parameters
  | .agent => AgentSettings.parameters

/-- A line that shows a setting; one that is not there is shown as a dash. -/
def line (name : String) (value : Option String) : String :=
  let shown := value.getD "-"
  s!"{name}: {shown}"

/-- The lines that show the settings of a server; the secret
itself is not shown. -/
def serverLines (s : ServerSettings) : List String := [
  line "address" s.address,
  line "grpc address" s.grpcAddress,
  line "store interval" (toString s.storeInterval),
  line "file storage path" s.snapshotPath,
  line "restore" (toString s.restores),
  line "database" s.dsn,
  line "signed" (toString s.secret.isSome),
  line "crypto key" s.privateKeyPath,
  line "trusted subnet" s.trustedSubnet,
  line "log level" s.logLevel]

/-- The lines that show the settings of an agent; the secret
itself is not shown. -/
def agentLines (s : AgentSettings) : List String := [
  line "address" s.address,
  line "grpc address" s.grpcAddress,
  line "poll interval" (toString s.pollInterval),
  line "report interval" (toString s.reportInterval),
  line "rate limit" (toString s.rateLimit),
  line "signed" (toString s.secret.isSome),
  line "crypto key" s.publicKeyPath,
  line "log level" s.logLevel]

def settingsLines (p : Program) (disk : Disk)
    (environment : List (String × String)) (arguments : List String) :
    Except SettingsError (List String) :=
  match p with
  | .server => serverLines <$> ServerSettings.resolve disk environment arguments
  | .agent => agentLines <$> AgentSettings.resolve disk environment arguments

def helpLine (p : Parameter) : String :=
  let letter := match p.letter with
    | some c => s!"-{c}, "
    | none => ""
  s!"  {letter}--{p.name} (environment: {p.environmentName})"

def version : String := "0.1.0"

/-- What is shown for a failure, and the exit code: asking for help or
the version is no failure, a fault of the command line is two and
everything else one. -/
def answer (p : Program) : SettingsError → List String × UInt32
  | .commandLine .helpWanted => (p.parameters.map helpLine, 0)
  | .commandLine .versionWanted => ([version], 0)
  | .commandLine fault => ([fault.message], 2)
  | e => ([e.message], 1)

/-- The environment variables of parameters, as far as they are set. -/
def environmentOf (parameters : List Parameter) : IO (List (String × String)) :=
  parameters.filterMapM fun p => do
    return (← IO.getEnv p.environmentName).map fun value =>
      (p.environmentName, value)

/-- A tree with the file of a path, if it can be read. -/
def diskWith (path : String) : IO Disk := do
  try
    let contents ← IO.FS.readBinFile path
    match SnapshotFile.openAt .empty path with
    | .ok (file, disk) =>
      return (file.save contents.toList disk).toOption.getD disk
    | .error _ => return .empty
  catch _ => return .empty

/-- Shows the settings of a program or why it has none. -/
def present (p : Program) (arguments : List String) : IO UInt32 := do
  let environment ← environmentOf p.parameters
  let given :=
    (CommandLine.read p.parameters environment arguments).toOption.getD []
  let disk ← match given.text? Settings.fileParameter.name with
    | some path => diskWith path
    | none => pure .empty
  match p.settingsLines disk environment arguments with
  | .ok lines =>
    lines.forM IO.println
    return 0
  | .error e =>
    let (lines, code) := p.answer e
    lines.forM (if code = 0 then IO.println else IO.eprintln)
    return code

end Program

end Telemetry

/-- Shows the settings of the program that is named first. -/
def main (arguments : List String) : IO UInt32 := do
  match arguments with
  | name :: rest =>
    match Telemetry.Program.ofName? name with
    | some p => p.present rest
    | none =>
      IO.eprintln s!"unknown program '{name}'"
      return 2
  | [] =>
    IO.eprintln "a program must be named: server or agent"
    return 2
