import Telemetry.Http.Ingress
import Telemetry.Service
import Telemetry.Metric.Protobuf

/-!
# The remote procedure

A batch is sent as one payload: messages that were signed, then compressed, then
encrypted.  The call undoes this in reverse order, after it has looked at the
sender, and stores the batch.
-/

namespace Telemetry.Rpc

/-- What kind of failure a call reports. -/
inductive Code where
  | invalidArgument
  | notFound
  | permissionDenied
  | unauthenticated
  | unavailable
  | internal
  deriving DecidableEq, Repr

def Code.name : Code → String
  | .invalidArgument => "InvalidArgument"
  | .notFound => "NotFound"
  | .permissionDenied => "PermissionDenied"
  | .unauthenticated => "Unauthenticated"
  | .unavailable => "Unavailable"
  | .internal => "Internal"

/-- The failure of a call. -/
structure Status where
  code : Code
  message : String
  deriving DecidableEq, Repr

def Status.ofService : ServiceError → Status
  | .rejected rejection => ⟨.invalidArgument, rejection.message⟩
  | .notFound kind id => ⟨.notFound, ServiceError.message (.notFound kind id)⟩
  | .storage error => ⟨.internal, error.message⟩

/-- A call with its metadata. -/
structure Call where
  metadata : Http.Headers
  payload : Bytes

def decrypt (security : Security) (payload : Bytes) : Except Status Bytes :=
  match security.opener with
  | none => .ok payload
  | some opener =>
    (opener.decrypt payload).mapError fun _ =>
      ⟨.invalidArgument, "cannot decrypt payload"⟩

def checkSignature (security : Security) (metadata : Http.Headers)
    (messages : Bytes) : Except Status Unit :=
  match security.signer with
  | none => .ok ()
  | some key =>
    match Http.Headers.text? metadata Http.hashHeader with
    | none => .error ⟨.unauthenticated, "missing hashsha256 metadata"⟩
    | some signature =>
      (key.verify messages signature).mapError fun e =>
        ⟨.unauthenticated, s!"signature rejected: {e.message}"⟩

def readBatch (security : Security) (call : Call) : Except Status Batch := do
  let ip := Http.Headers.text? call.metadata Http.realIpHeader
  if !security.isTrusted ip then
    throw ⟨.permissionDenied, Security.untrusted ip⟩
  let packed ← decrypt security call.payload
  let messages ← (Gzip.decompress packed).mapError fun e =>
    ⟨.invalidArgument, s!"invalid gzip payload: {e.message}"⟩
  checkSignature security call.metadata messages
  (Batch.ofMessages messages).mapError fun e =>
    ⟨.invalidArgument, s!"malformed batch: {e.message}"⟩

/-- Stores the batch of a call; the answer is the number of its metrics. -/
def updateBatch {σ : Type} [SampleStore σ] (security : Security) (call : Call) :
    StateM σ (Except Status Nat) := fun s =>
  match readBatch security call with
  | .error status => (.error status, s)
  | .ok batch =>
    let (result, s) := Service.updateBatch batch s
    (result.mapError Status.ofService, s)

end Telemetry.Rpc
