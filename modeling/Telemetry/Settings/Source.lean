import Telemetry.CommandLine
import Telemetry.Disk
import Telemetry.Toml.Document
import Telemetry.Security

/-!
# Where settings come from

A program has settings of its own, which a configuration file changes and which
the environment and the command line change again, in this order.  A setting
that is blank or empty where it need not be there is as good as none.
-/

namespace Telemetry

/-- Why a program has no settings. -/
inductive SettingsError where
  | commandLine (fault : CommandLine.Fault)
  | unreadable (path : String)
  | malformed (path : String)
  | noListenAddress
  | subnet (text : String)
  | noWorkers
  | noPollInterval
  | shortReportInterval (report poll : Nat)
  | noServerAddress
  deriving DecidableEq, Repr

def SettingsError.message : SettingsError → String
  | .commandLine fault => fault.message
  | .unreadable path => s!"read config {path}"
  | .malformed path => s!"parse config {path}"
  | .noListenAddress => "listen address must not be empty"
  | .subnet text => (SecurityError.subnet text).message
  | .noWorkers => "rate limit must be at least 1"
  | .noPollInterval => "poll interval must be at least 1s"
  | .shortReportInterval report poll =>
    s!"report interval ({report}s) must not be shorter than "
      ++ s!"poll interval ({poll}s)"
  | .noServerAddress => "server address must not be empty"

namespace Toml

/-- The value of a key that need not be there, in the form
that `read` accepts. -/
def Table.field? {α : Type} (t : Table) (key : String)
    (read : Value → Option α) : Option (Option α) :=
  match t.find? key with
  | none => some none
  | some value => some <$> read value

def Value.text? : Value → Option String
  | .text s => some s
  | _ => none

/-- An integer that is not negative. -/
def Value.count? : Value → Option Nat
  | .integer i => if 0 ≤ i.toInt then some i.toInt.toNat else none
  | _ => none

def Value.flag? : Value → Option Bool
  | .boolean b => some b
  | _ => none

end Toml

namespace Settings

def unlessEmpty (s : Option String) : Option String :=
  s.filter (! ·.isEmpty)

def unlessBlank (s : Option String) : Option String :=
  s.filter (! Text.isBlankText ·)

def fileParameter : Parameter := ⟨"config", some 'c', "CONFIG", .path⟩

/-- The settings of a configuration file, or `standard` if none is named. -/
def ofFile {α : Type} (standard : α) (ofTable? : Toml.Table → Option α)
    (disk : Disk) (given : Given) : Except SettingsError α :=
  match given.text? fileParameter.name with
  | none => .ok standard
  | some path =>
    match (disk.read path).toOption.bind Utf8.decode? with
    | none => .error (.unreadable path)
    | some text =>
      match (Toml.ofText? text).bind ofTable? with
      | some settings => .ok settings
      | none => .error (.malformed path)

end Settings

end Telemetry
