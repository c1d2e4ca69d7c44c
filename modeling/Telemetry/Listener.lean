import Telemetry.Network
import Telemetry.Supervisor
import Telemetry.Text.Integer

/-!
# Listeners

A listener is started once, at an address with a port or at a name that stands
for addresses.  The listener for HTTP is bound when its start succeeds.  The one
for remote calls only resolves its address then; when that is not
free it brings the whole program down.
-/

namespace Telemetry

/-- An address with a port. -/
structure Endpoint where
  address : Address
  port : Nat
  deriving DecidableEq, Repr

/-- What a machine knows: the addresses of names, and the endpoints that
somebody listens on. -/
structure Machine where
  names : String → Option (List Address)
  taken : List Endpoint

namespace Endpoint

def portBound : Nat := 65536

def port? (cs : List Char) : Option Nat :=
  (Text.decimalValue? cs).filter (· < portBound)

/-- The endpoint of a text: an address, between brackets if it has groups, a
colon and a port. -/
def ofText? (s : String) : Option Endpoint :=
  match s.toList with
  | '[' :: cs => do
    let (value, rest) ← Address.readGrouped? Address.strict cs
    let rest ← Address.readChar? ']' rest
    return ⟨⟨.v6, value⟩, ← port? (← Address.readChar? ':' rest)⟩
  | cs => do
    let (value, rest) ← Address.readDotted? Address.strict cs
    return ⟨⟨.v4, value⟩, ← port? (← Address.readChar? ':' rest)⟩

/-- What stands before and after the last colon. -/
def splitPort? (s : String) : Option (String × String) :=
  match s.toList.reverse.span (· != ':') with
  | (port, _ :: host) =>
    some (String.ofList host.reverse, String.ofList port.reverse)
  | _ => none

/-- The endpoints that a text stands for: the one it spells, or those of
a name and a port. -/
def resolve (m : Machine) (s : String) : Option (List Endpoint) :=
  match ofText? s with
  | some e => some [e]
  | none => do
    let (host, port) ← splitPort? s
    let port ← Text.readNat? portBound port
    let addresses ← ((Address.ofText? host).map fun a => [a]).or (m.names host)
    return addresses.map fun a => ⟨a, port⟩

/-- Whether an address is one of the machine itself: the loopback ones, and the
one that stands for all. -/
def isLocal (a : Address) : Bool :=
  match a.version with
  | .v4 => a.value = 0 || a.value >>> 24 = 127
  | .v6 => a.value ≤ 1

/-- Whether a listener can be bound; port zero stands for any
port that is free. -/
def isFree (m : Machine) (e : Endpoint) : Bool :=
  isLocal e.address && (e.port = 0 || !m.taken.contains e)

end Endpoint

/-- The kinds of listeners. -/
inductive ListenerKind where
  | http
  | remoteCalls
  deriving DecidableEq, Repr

def ListenerKind.name : ListenerKind → String
  | .http => "http-server"
  | .remoteCalls => "grpc-server"

/-- A listener: what it serves, where it is told to listen, whether it was
started before, and the address that a listener for HTTP is bound to. -/
structure Listener where
  kind : ListenerKind
  address : String
  started : Bool
  bound : Option Address
  deriving DecidableEq, Repr

namespace Listener

/-- A listener that was never started. -/
def new (kind : ListenerKind) (address : String) : Listener :=
  ⟨kind, address, false, none⟩

/-- Why a listener does not start. -/
inductive Failure where
  | alreadyStarted (kind : ListenerKind)
  | bind (address : String)
  | resolve (address : String)
  | noAddress (address : String)
  deriving DecidableEq, Repr

def Failure.message : Failure → String
  | .alreadyStarted .http => "http server already started"
  | .alreadyStarted .remoteCalls => "gRPC server already started"
  | .bind address => s!"bind {address}"
  | .resolve address => s!"resolve {address}"
  | .noAddress address => s!"{address} resolves to no address"

/-- What comes of a start: a listener, whether it succeeded, and whether the
program is brought down. -/
def start (m : Machine) (l : Listener) : Started Listener :=
  let endpoints := Endpoint.resolve m l.address
  let used := { l with started := true }
  let fail (e : Failure) : Started Listener := ⟨.error e.message, used, none⟩
  if l.started then fail (.alreadyStarted l.kind)
  else
    match l.kind, endpoints with
    | .http, endpoints =>
      match (endpoints.getD []).find? (Endpoint.isFree m) with
      | none => fail (.bind l.address)
      | some e => ⟨.ok (), { used with bound := some e.address }, none⟩
    | .remoteCalls, none => fail (.resolve l.address)
    | .remoteCalls, some [] => fail (.noAddress l.address)
    | .remoteCalls, some (e :: _) =>
      ⟨.ok (), used, if e.isFree m then none else some 0⟩

def component (m : Machine) (l : Listener) : Component Listener :=
  ⟨l.kind.name, start m, fun l => (.ok (), l)⟩

end Listener

end Telemetry
