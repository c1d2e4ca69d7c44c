import Telemetry.Http.Ingress
import Telemetry.Http.Route
import Telemetry.Page
import Telemetry.Metric.Json

/-!
# The HTTP interface

Metrics are stored and read by documents or by paths, the page lists all of
them, and a ping tells whether the store is well.  Every request, whatever its
path and method, passes the layers before it is handled.
-/

namespace Telemetry.Http

/-- Why a handler does not answer with what was asked. -/
inductive ApiError where
  | badRequest (reason : String)
  | notFound
  | tooLarge
  | internal (reason : String)
  deriving DecidableEq, Repr

namespace ApiError

def ofService : ServiceError → ApiError
  | .rejected rejection => .badRequest rejection.message
  | .notFound _ _ => .notFound
  | .storage error => .internal error.message

def response : ApiError → Response
  | .badRequest reason => .text 400 reason
  | .notFound => .text 404 "not exists"
  | .tooLarge =>
    .text 413 "Failed to buffer the request body: length limit exceeded"
  | .internal reason => .text 500 reason

end ApiError

/-- The greatest number of bytes of a document. -/
def maxJsonBytes : Nat := 2 * 1024 * 1024

def readJson {α : Type} (read : Bytes → Except Json.Error α) (body : Bytes) :
    Except ApiError α :=
  if maxJsonBytes < body.length then .error .tooLarge
  else (read body).mapError fun e => .badRequest s!"invalid JSON: {e.message}"

def readParts (parts : List (String × String)) :
    Except ApiError (List String) :=
  parts.mapM fun part =>
    match decodePart? part.2 with
    | some text => .ok text
    | none => .error (.badRequest s!"Invalid URL: Invalid UTF-8 in `{part.1}`")

def readKind (name : String) : Except ApiError Kind :=
  match Kind.ofName? name with
  | some kind => .ok kind
  | none => .error (.badRequest (Kind.unknownMessage name))

def metricOfPath (kind name value : String) : Except ApiError Metric := do
  match ← readKind kind with
  | .gauge =>
    match Binary64.ofText? value with
    | some x => return .gauge name x
    | none =>
      throw (.badRequest s!"gauge value {Text.quote value} is not a number")
  | _ =>
    match Text.readInt64? value with
    | some n => return .counter name n
    | none =>
      throw (.badRequest s!"counter delta {Text.quote value} is not an integer")

variable {σ : Type} [SampleStore σ]

/-- Answers with the response to a request that was understood, or
with its failure. -/
def respond {α β : Type} (request : Except ApiError α) (op : α → ServiceM σ β)
    (response : β → Response) : StateM σ Response := fun s =>
  match request with
  | .error e => (e.response, s)
  | .ok a =>
    match op a s with
    | (.ok b, s) => (response b, s)
    | (.error e, s) => ((ApiError.ofService e).response, s)

def handle (route : Route) (body : Bytes) : StateM σ Response :=
  let asText (m : Metric) : Response := .text 200 m.valueText
  let asJson (m : Metric) : Response := .json m.toJson
  match route with
  | .index => respond (.ok ()) (fun _ => Page.render) .html
  | .ping => respond (.ok ()) (fun _ => Service.ping) fun _ => .bare 200
  | .updateMetric => respond (readJson Metric.ofJson body) Service.update asJson
  | .updateBatch =>
    respond (readJson Batch.ofJson body) Service.updateBatch fun _ => .bare 200
  | .readMetric => respond (readJson Metric.ofJson body) Service.read asJson
  | .updateByPath kind name value =>
    let request := do
      match ← readParts [("kind", kind), ("name", name), ("value", value)] with
      | [kind, name, value] => metricOfPath kind name value
      | _ => throw .notFound
    respond request Service.update asText
  | .readByPath kind name =>
    let request := do
      match ← readParts [("kind", kind), ("name", name)] with
      | [kind, name] => return Metric.key name (← readKind kind)
      | _ => throw .notFound
    respond request Service.read asText

def router : Handler σ := fun r =>
  match Route.ofPath? r.path with
  | none => return .bare 404
  | some route =>
    let byMethod : Handler σ := fun r =>
      if route.methods.contains r.method then handle route r.body
        else return .bare 405
    if route.takesJson then jsonOnly byMethod r else byMethod r

/-- The layers around a handler, the outermost first. -/
def protect (security : Security) (handler : Handler σ) : Handler σ :=
  decrypt security <| filterCodings <| gzip <| hmac security <|
    trustedOnly security handler

/-- What a response gets last: the methods of the path where the method is not
one of them, and no body for those who ask for the headers only. -/
def finish (r : Request) (response : Response) : Response :=
  let response := match Route.ofPath? r.path with
    | some route =>
      if route.methods.contains r.method then response
      else response.withHeader "allow" (",".intercalate route.methods)
    | none => response
  if r.method == "HEAD" then { response with body := [] } else response

def app (security : Security) : Handler σ := fun r =>
  finish r <$> protect security router r

end Telemetry.Http
