import Telemetry.Http.Message
import Telemetry.Gzip
import Telemetry.Security

/-!
# The layers before the handlers

A request is decrypted, filtered by the encoding of its body, inflated, checked
against its signature and its sender, and only then handled.  The response is
signed before it is compressed.  A layer that refuses a request answers it
itself.
-/

namespace Telemetry.Http

/-- The greatest number of bytes of a body that a layer holds. -/
def maxBodyBytes : Nat := 16 * 1024 * 1024

def hashHeader : String := "hashsha256"

def realIpHeader : String := "x-real-ip"

/-- Takes a body as a whole, unless it is too long. -/
def readBody (body : Bytes) : Except Response Bytes :=
  if body.length ≤ maxBodyBytes then .ok body
  else .error (.text 400 "read body: length limit exceeded")

/-- Whether the headers say that there is no body. -/
def declaresEmptyBody (h : Headers) : Bool :=
  match Headers.text? h "content-length" with
  | some value => Text.trim value == "0"
  | none => false

variable {σ : Type}

/-- Hands on what was read, or answers with the refusal. -/
def orRefuse {α : Type} (r : Except Response α) (next : α → StateM σ Response) :
    StateM σ Response :=
  match r with
  | .ok a => next a
  | .error response => return response

def decrypted (opener : BlockOpener) (r : Request) :
    Except Response Request := do
  let body ← readBody r.body
  if body.isEmpty then return { r with body := [] }
  match opener.decrypt body with
  | .ok plain =>
    return { r with
      headers := Headers.setLength r.headers plain
      body := plain }
  | .error _ => throw (.text 400 "cannot decrypt body")

def decrypt (security : Security) : Layer σ := fun next r =>
  match security.opener with
  | none => next r
  | some opener =>
    if declaresEmptyBody r.headers then next r
      else orRefuse (decrypted opener r) next

/-- The codings that a request declares; a value that is no text counts
as a question mark. -/
def declaredCodings (h : Headers) : List String :=
  (h.all "content-encoding").flatMap fun value =>
    Headers.parts ((Headers.visible? value).getD "?")

/-- Whether a coding is one that is undone or needs no undoing. -/
def isKnownCoding (coding : String) : Bool :=
  coding.isEmpty || sameIgnoringCase coding "gzip" ||
    sameIgnoringCase coding "identity"

def filterCodings : Layer σ := fun next r =>
  if declaresEmptyBody r.headers then next r
  else
    match (declaredCodings r.headers).find? (! isKnownCoding ·) with
    | some coding =>
      return .text 415 s!"content encoding {Text.quote coding} is not supported"
    | none => next r

/-- Whether the first value that declares a coding names gzip. -/
def isGzipped (h : Headers) : Bool :=
  match Headers.text? h "content-encoding" with
  | some value => (Headers.parts value).any (sameIgnoringCase · "gzip")
  | none => false

/-- Whether the first value that lists accepted codings has one that
begins with gzip. -/
def acceptsGzip (h : Headers) : Bool :=
  match Headers.text? h "accept-encoding" with
  | some value => (Headers.parts value).any (·.startsWith "gzip")
  | none => false

/-- The request with the inflated body; an empty body stays empty. -/
def inflated (r : Request) : Except Response Request := do
  let body ← readBody r.body
  let plain ←
    if body.isEmpty then pure []
    else
      match Gzip.decompress body with
      | .ok plain => pure plain
      | .error e => throw (.text 400 s!"invalid gzip body: {e.message}")
  let headers :=
    Headers.setLength (Headers.remove r.headers "content-encoding") plain
  return { r with headers, body := plain }

/-- The response with its body compressed, unless the body is empty. -/
def compressed (r : Response) : Response :=
  if r.body.isEmpty then r
  else
    let body := Gzip.compress r.body
    let headers :=
      Headers.setLength (Headers.set r.headers "content-encoding" "gzip") body
    { r with headers, body }

/-- Inflates request bodies and compresses successful responses for
those who accept it. -/
def gzip : Layer σ := fun next r =>
  orRefuse (if isGzipped r.headers then inflated r else .ok r) fun inner => do
    let response ← next inner
    return if acceptsGzip r.headers && response.isSuccess then
      compressed response else response

/-- The request if its body is empty or has a valid signature. -/
def verified (key : SigningKey) (r : Request) : Except Response Request := do
  let body ← readBody r.body
  if body.isEmpty then return r
  match Headers.text? r.headers hashHeader with
  | none => throw (.text 400 "missing HashSHA256 header")
  | some signature =>
    match key.verify body signature with
    | .ok () => return r
    | .error _ => throw (.text 400 "signature mismatch")

/-- The response with the signature of its body, unless the body is empty. -/
def signed (key : SigningKey) (r : Response) : Response :=
  if r.body.isEmpty then r else r.withHeader hashHeader (key.sign r.body)

/-- Checks the signatures of requests and signs responses. -/
def hmac (security : Security) : Layer σ := fun next r =>
  match security.signer with
  | none => next r
  | some key => orRefuse (verified key r) fun r => signed key <$> next r

/-- Refuses senders outside the trusted network. -/
def trustedOnly (security : Security) : Layer σ := fun next r =>
  let ip := Headers.text? r.headers realIpHeader
  if security.isTrusted ip then next r
    else return .text 403 (Security.untrusted ip)

def isJson (h : Headers) : Bool :=
  match Headers.text? h "content-type" with
  | some value =>
    let type := String.ofList (value.toList.takeWhile (· != ';'))
    sameIgnoringCase (Text.trim type) "application/json"
  | none => false

/-- Refuses bodies that are not declared to be documents. -/
def jsonOnly : Layer σ := fun next r =>
  if isJson r.headers then next r
    else return .text 415 "expected application/json"

end Telemetry.Http
