import Telemetry.Metric.Json
import Telemetry.Metric.Protobuf
import Telemetry.Gzip
import Telemetry.Signature
import Telemetry.Cipher.Blocks

/-!
# Envelopes

A chunk of metrics is written as a document or as messages, signed, compressed
and, where the server has a key, encrypted.  What results travels with the
signature of what was written and with the address of the sender.
-/

namespace Telemetry

/-- How a chunk is written. -/
inductive Encoding where
  | document
  | messages
  deriving DecidableEq, Repr

namespace Encoding

def encode : Encoding → Batch → Bytes
  | .document => Batch.toJson
  | .messages => Batch.toMessages

def decode? (encoding : Encoding) (payload : Bytes) : Option Batch :=
  match encoding with
  | .document => (Batch.ofJson payload).toOption
  | .messages => (Batch.ofMessages payload).toOption

end Encoding

/-- A chunk that is ready to be sent. -/
structure Envelope where
  body : Bytes
  /-- The signature of the payload. -/
  signature : Option String
  /-- The address of the sender. -/
  realIp : Option String
  deriving DecidableEq, Repr

/-- How an agent seals its chunks; `seeds` are the random bytes of a cipher. -/
structure Seal where
  encoding : Encoding
  signer : Option SigningKey
  sealer : Option BlockSealer
  seeds : Nat → Bytes
  realIp : Option String

namespace Seal

def enclose (s : Seal) (chunk : Batch) : Except CipherError Envelope := do
  let payload := s.encoding.encode chunk
  let packed := Gzip.compress payload
  let body ← match s.sealer with
    | some sealer => sealer.encrypt s.seeds packed
    | none => pure packed
  return ⟨body, s.signer.map fun key => key.sign payload, s.realIp⟩

end Seal

def Envelope.payload? (e : Envelope) (opener : Option BlockOpener) :
    Option Bytes := do
  let packed ← match opener with
    | some opener => (opener.decrypt e.body).toOption
    | none => some e.body
  (Gzip.decompress packed).toOption

end Telemetry
