import Telemetry.Digest.Hmac
import Telemetry.Text.Hex
import Telemetry.Text.Blank
import Telemetry.Pool

/-!
# Signatures of payloads

A payload is signed with a shared secret; the signature travels as lower-case
hexadecimal text.  An empty secret means that nothing is signed.  A signer keeps
its running digests in a pool, and what it answers does not depend on what it
was asked before.
-/

namespace Telemetry

/-- A secret that is not empty. -/
structure SigningKey where
  bytes : Bytes
  nonempty : bytes ≠ []

/-- Why a signature is refused. -/
inductive SignatureError where
  /-- The text is not the hexadecimal form of bytes. -/
  | malformed (error : Hex.Error)
  /-- The text is the form of other bytes. -/
  | mismatch
  deriving DecidableEq, Repr

def SignatureError.message : SignatureError → String
  | .malformed error => s!"signature is not valid hex: {error.message}"
  | .mismatch => "signature mismatch"

namespace SigningKey

/-- The key of a secret, none for an empty one. -/
def ofBytes? (bytes : Bytes) : Option SigningKey :=
  if h : bytes = [] then none else some ⟨bytes, h⟩

def sign (key : SigningKey) (payload : Bytes) : String :=
  Hex.encode (Hmac.sha256 key.bytes payload)

/-- The bytes that a signature stands for, blanks around it aside. -/
def readSignature (signature : String) : Except SignatureError Bytes :=
  (Hex.decode (Utf8.encode (Text.trim signature))).mapError .malformed

def verify (key : SigningKey) (payload : Bytes) (signature : String) :
    Except SignatureError Unit := do
  let expected ← readSignature signature
  if Hmac.sha256 key.bytes payload = expected then return ()
    else .error .mismatch

end SigningKey

/-- A running digest: what it has taken since it was reset. -/
structure RunningDigest where
  taken : Bytes
  deriving DecidableEq, Repr

/-- A signer: its key and the running digests it keeps. -/
structure Signer where
  key : SigningKey
  digests : Pool RunningDigest

namespace Signer

/-- How a signer keeps its digests: at most thirty-two,
emptied before each use. -/
def plan : PoolPlan RunningDigest := ⟨32, fun _ => ⟨[]⟩, fun _ => ⟨[]⟩⟩

/-- A signer that has not signed anything. -/
def new (key : SigningKey) : Signer := ⟨key, .empty⟩

/-- Digests a payload with one of the running digests, which ends up empty. -/
def digest (s : Signer) (payload : Bytes) : Bytes × Signer :=
  let (item, digests) := s.digests.acquire plan
  let taken := item.content.taken ++ payload
  (Hmac.sha256 s.key.bytes taken,
    { s with digests := digests.release plan { item with content := ⟨[]⟩ } })

def sign (s : Signer) (payload : Bytes) : String × Signer :=
  let (bytes, s) := s.digest payload
  (Hex.encode bytes, s)

/-- Checks the signature of a payload; a text that is no
signature needs no digest. -/
def verify (s : Signer) (payload : Bytes) (signature : String) :
    Except SignatureError Unit × Signer :=
  match SigningKey.readSignature signature with
  | .error e => (.error e, s)
  | .ok expected =>
    let (actual, s) := s.digest payload
    (if actual = expected then .ok () else .error .mismatch, s)

end Signer

end Telemetry
