import Telemetry.Text.Integer

/-!
# Parameters from a command line and an environment

A parameter is given once, by its long name after two dashes or by its letter
after one, with its value attached or as the next argument.  A parameter that is
not given takes the value of its environment variable, if there is one.  The
first fault that is noticed is reported; a value that is an argument of its own
is judged only when the next parameter, or the end, shows that it is complete.
-/

namespace Telemetry

/-- Which values a parameter takes. -/
inductive ParameterForm where
  | text
  /-- A text that is not empty. -/
  | path
  /-- A natural number below 2⁶⁴. -/
  | count
  /-- The word for true or for false. -/
  | flag
  deriving DecidableEq, Repr

/-- A parameter of a program. -/
structure Parameter where
  /-- Its long name, without dashes. -/
  name : String
  letter : Option Char
  /-- Its environment variable. -/
  environmentName : String
  form : ParameterForm
  deriving DecidableEq, Repr

/-- The value of a parameter. -/
inductive Setting where
  | text (s : String)
  | count (n : Nat)
  | flag (b : Bool)
  deriving DecidableEq, Repr

namespace CommandLine

/-- Why a command line is not carried out. -/
inductive Fault where
  /-- It asks for help. -/
  | helpWanted
  /-- It asks for the version. -/
  | versionWanted
  | unknownArgument (argument : String)
  | missingValue (name : String)
  | emptyPath (name : String)
  | notACount (name value : String)
  | notAFlag (name value : String)
  | repeated (name : String)
  /-- A value is attached to a name that takes none. -/
  | unwantedValue (name : String)
  deriving DecidableEq, Repr

/-- The text of a fault; who asks for help or the version gets
an answer instead. -/
def Fault.message : Fault → String
  | .helpWanted | .versionWanted => ""
  | .unknownArgument argument => s!"unexpected argument '{argument}' found"
  | .missingValue name | .emptyPath name =>
    s!"a value is required for '--{name}'"
  | .notACount name value => s!"invalid value '{value}' for '--{name}'"
  | .notAFlag name value =>
    s!"invalid value '{value}' for '--{name}': neither true nor false"
  | .repeated name => s!"the argument '--{name}' cannot be used multiple times"
  | .unwantedValue name => s!"unexpected value for '--{name}'"

/-- What an argument looks like. -/
inductive Argument where
  /-- Two dashes: no names follow. -/
  | separator
  | long (name : String) (value : Option String)
  /-- A letter and what is attached to it. -/
  | short (letter : Char) (attached : List Char)
  | plain
  deriving DecidableEq, Repr

def Argument.ofText (argument : String) : Argument :=
  match argument.toList with
  | ['-', '-'] => .separator
  | '-' :: '-' :: cs =>
    let name := String.ofList (cs.takeWhile (· != '='))
    match cs.dropWhile (· != '=') with
    | '=' :: value => .long name (some (String.ofList value))
    | _ => .long name none
  | '-' :: c :: cs => .short c cs
  | _ => .plain

/-- The value attached to a letter, which an equals sign may precede. -/
def attachedValue? : List Char → Option String
  | [] => none
  | '=' :: value => some (String.ofList value)
  | value => some (String.ofList value)

end CommandLine

open CommandLine

def Parameter.read (p : Parameter) (value : String) : Except Fault Setting :=
  match p.form with
  | .text => .ok (.text value)
  | .path =>
    if value.isEmpty then .error (.emptyPath p.name) else .ok (.text value)
  | .count =>
    match Text.readNat? UInt64.size value with
    | some n => .ok (.count n)
    | none => .error (.notACount p.name value)
  | .flag =>
    if value = "true" then .ok (.flag true)
    else if value = "false" then .ok (.flag false)
    else .error (.notAFlag p.name value)

/-- The settings by the names of their parameters. -/
abbrev Given := List (String × Setting)

namespace Given

def text? (given : Given) (name : String) : Option String :=
  match given.lookup name with
  | some (.text s) => some s
  | _ => none

def count? (given : Given) (name : String) : Option Nat :=
  match given.lookup name with
  | some (.count n) => some n
  | _ => none

/-- A setting that is true or false. -/
def flag? (given : Given) (name : String) : Option Bool :=
  match given.lookup name with
  | some (.flag b) => some b
  | _ => none

end Given

namespace CommandLine

/-- What has been read of a command line: the settings, and the parameter
that was named last if its value is an argument of its own, with that value
once it has come. -/
structure Reading where
  given : Given
  awaited : Option (Parameter × Option String)
  deriving DecidableEq, Repr

namespace Reading

/-- Nothing has been read. -/
def start : Reading := ⟨[], none⟩

/-- Takes the value of a parameter, which must not have one. -/
def accept (r : Reading) (p : Parameter) (value : String) :
    Except Fault Reading :=
  if (r.given.lookup p.name).isSome then .error (.repeated p.name)
  else do return { r with given := (p.name, ← p.read value) :: r.given }

def settle (r : Reading) : Except Fault Reading :=
  match r.awaited with
  | none => .ok r
  | some (p, none) => .error (.missingValue p.name)
  | some (p, some value) =>
    ({ r with awaited := none } : Reading).accept p value

/-- Names a parameter, with or without a value attached. -/
def meet (r : Reading) (p : Parameter) (value : Option String) :
    Except Fault Reading := do
  let r ← r.settle
  match value with
  | some value => r.accept p value
  | none => return { r with awaited := some (p, none) }

/-- Asks for something else than the work of the program. -/
def ask (r : Reading) (fault : Fault) : Except Fault Reading := do
  let _ ← r.settle
  throw fault

/-- Reads an argument before any separator. -/
def step (parameters : List Parameter) (r : Reading) (argument : String) :
    Except Fault Reading :=
  let unknown : Except Fault Reading := .error (.unknownArgument argument)
  match Argument.ofText argument with
  | .separator => unknown
  | .long name value =>
    if name = "help" ∨ name = "version" then
      if value.isSome then .error (.unwantedValue name)
      else r.ask (if name = "help" then .helpWanted else .versionWanted)
    else
      match parameters.find? (·.name = name) with
      | some p => r.meet p value
      | none => unknown
  | .short letter attached =>
    if letter = 'h' then r.ask .helpWanted
    else if letter = 'V' then r.ask .versionWanted
    else
      match parameters.find? (·.letter = some letter) with
      | some p => r.meet p (attachedValue? attached)
      | none => unknown
  | .plain =>
    match r.awaited with
    | some (p, none) => .ok { r with awaited := some (p, some argument) }
    | _ => unknown

/-- Reads arguments to the end; nothing may follow a separator. -/
def arguments (parameters : List Parameter) (r : Reading) :
    List String → Except Fault Reading
  | [] => r.settle
  | argument :: rest =>
    match Argument.ofText argument, rest with
    | .separator, [] => r.settle
    | .separator, extra :: _ => .error (.unknownArgument extra)
    | _, rest => do arguments parameters (← r.step parameters argument) rest

/-- Takes the value of a parameter that was not given from its
environment variable. -/
def consult (environment : List (String × String)) (r : Reading)
    (p : Parameter) : Except Fault Reading :=
  match r.given.lookup p.name, environment.lookup p.environmentName with
  | none, some value => r.accept p value
  | _, _ => .ok r

end Reading

/-- The settings of a program: those of its arguments, then those
of its environment. -/
def read (parameters : List Parameter) (environment : List (String × String))
    (arguments : List String) : Except Fault Given := do
  let r ← Reading.start.arguments parameters arguments
  return (← parameters.foldlM (Reading.consult environment) r).given

end CommandLine

end Telemetry
