import Telemetry.Report.Envelope
import Telemetry.Uri
import Telemetry.Http.App
import Telemetry.Rpc

/-!
# Transports

An envelope is delivered as a request to the HTTP interface of a server or as a
call of its remote procedure.  What carries them there acts on the state of the
world, and answers nothing when no connection can be made.
-/

namespace Telemetry

/-- Why a chunk is not delivered. -/
inductive TransportError where
  /-- The address of a server for remote calls is none. -/
  | invalidAddress (address : String)
  | encryption (error : CipherError)
  /-- The task that seals the chunk has stopped. -/
  | stopped (reason : Halt)
  /-- A request cannot be made, or nobody answers it. -/
  | noAnswer
  | refused (status : Nat) (body : String)
  | call (status : Rpc.Status)
  | invalidMetadata (value : String)
  /-- Shutdown came first. -/
  | cancelled

def TransportError.message : TransportError → String
  | .invalidAddress address =>
    s!"encode chunk: invalid gRPC address {Text.quote address}"
  | .encryption error => s!"encrypt chunk: {error.message}"
  | .stopped reason => s!"worker task failed: {reason.message}"
  | .noAnswer => "http request: no answer"
  | .refused status body => s!"server responded {status}: {body}"
  | .call status => s!"rpc: {status.message}"
  | .invalidMetadata value => s!"invalid metadata value: {value}"
  | .cancelled => "delivery cancelled"

/-- What delivers envelopes. -/
abbrev Transport (σ : Type) := Envelope → StateM σ (Except TransportError Unit)

/-- Seals a chunk and delivers it. -/
def deliver {σ : Type} (s : Seal) (transport : Transport σ) (chunk : Batch) :
    StateM σ (Except TransportError Unit) :=
  match s.enclose chunk with
  | .ok envelope => transport envelope
  | .error (.halt reason) => return .error (.stopped reason)
  | .error e => return .error (.encryption e)

def namesScheme (address : String) : Bool :=
  go address.toList
where
  /-- Looks for a colon and two slashes. -/
  go : List Char → Bool
    | ':' :: '/' :: '/' :: _ => true
    | [] => false
    | _ :: rest => go rest

/-- An address with a scheme; the default one is that of plain connections. -/
def withScheme (address : String) : String :=
  if namesScheme address then address else s!"http://{address}"

namespace Http

def updatesUrl (address : String) : String :=
  let trimmed :=
    String.ofList (address.toList.reverse.dropWhile (· == '/')).reverse
  let base := if namesScheme address then trimmed else s!"http://{trimmed}"
  s!"{base}/updates/"

/-- Whether a text may be the value of a header. -/
def isHeaderValue (value : String) : Bool :=
  value.toList.all fun c => c == '\t' || (' ' ≤ c && c != '\x7F')

def request? (e : Envelope) : Option Request :=
  let own := (e.signature.map fun s => (hashHeader, s)).toList
    ++ (e.realIp.map fun ip => (realIpHeader, ip)).toList
  if own.all fun h => isHeaderValue h.2 then
    some ⟨"POST", "/updates/",
      [("content-type", "application/json"), ("content-encoding", "gzip"),
        ("accept-encoding", "gzip"),
        ("content-length", toString e.body.length)] ++ own, e.body⟩
  else none

def transport {σ : Type} (link : Request → StateM σ (Option Response)) :
    Transport σ :=
  fun e => do
    match request? e with
    | none => return .error .noAnswer
    | some request =>
      match ← link request with
      | none => return .error .noAnswer
      | some response =>
        if response.isSuccess then return .ok ()
        else
          let body := (Utf8.decode? response.body).getD ""
          return .error (.refused response.status (Text.trim body))

end Http

namespace Rpc

/-- The address of a server for remote calls, if it is one. -/
def checkAddress (address : String) : Except TransportError Unit :=
  if Uri.isValid (withScheme address) then .ok ()
    else .error (.invalidAddress address)

/-- A value of metadata, which must be visible. -/
def metadata (name : String) (value : Option String) :
    Except TransportError Http.Headers :=
  match value with
  | none => .ok []
  | some value =>
    if (Http.Headers.visible? value).isSome then .ok [(name, value)]
    else .error (.invalidMetadata value)

def callOf (e : Envelope) : Except TransportError Call := do
  let signature ← metadata Http.hashHeader e.signature
  let realIp ← metadata Http.realIpHeader e.realIp
  return ⟨signature ++ realIp, e.body⟩

/-- The failure of a call when no connection can be made. -/
def noConnection : Status := ⟨.unavailable, "tcp connect error"⟩

def transport {σ : Type} (link : Call → StateM σ (Option (Except Status Nat))) :
    Transport σ :=
  fun e => do
    match callOf e with
    | .error e => return .error e
    | .ok call =>
      match ← link call with
      | none => return .error (.call noConnection)
      | some (.error status) => return .error (.call status)
      | some (.ok _) => return .ok ()

end Rpc

end Telemetry
