import Telemetry.Text.Utf8
import Telemetry.Text.Blank

/-!
# Requests and responses

A message has a list of headers with lower-case names, in order and possibly
with repeated names.  A header value counts as text only if it consists of
visible ASCII characters, spaces and tabs.
-/

namespace Telemetry.Http

/-- Headers, in order. -/
abbrev Headers := List (String × String)

/-- A request; the path has no query. -/
structure Request where
  method : String
  path : String
  headers : Headers
  body : Bytes

/-- A response. -/
structure Response where
  status : Nat
  headers : Headers
  body : Bytes
  deriving DecidableEq, Repr

/-- The path of a target, without its query. -/
def pathOf (target : String) : String :=
  String.ofList (target.toList.takeWhile fun c => c != '?' && c != '#')

def lowerCase (s : String) : String := s.map Char.toLower

/-- Whether two texts differ at most in the case of ASCII letters. -/
def sameIgnoringCase (a b : String) : Bool := lowerCase a == lowerCase b

namespace Headers

def all (h : Headers) (name : String) : List String :=
  (h.filter (·.1 == name)).map (·.2)

/-- Whether a character may stand in a value that counts as text. -/
def isVisible (c : Char) : Bool :=
  (0x20 ≤ c.toNat && c.toNat ≤ 0x7E) || c == '\t'

/-- A value as text. -/
def visible? (value : String) : Option String :=
  if value.toList.all isVisible then some value else none

def text? (h : Headers) (name : String) : Option String :=
  (h.all name).head?.bind visible?

def remove (h : Headers) (name : String) : Headers :=
  h.filter (·.1 != name)

def set (h : Headers) (name value : String) : Headers :=
  h.remove name ++ [(name, value)]

def setLength (h : Headers) (body : Bytes) : Headers :=
  h.set "content-length" (toString body.length)

/-- The parts of a value between commas, without blanks around them. -/
def parts (value : String) : List String :=
  (Text.splitOn ',' value).map Text.trim

end Headers

namespace Response

/-- A response without a body. -/
def bare (status : Nat) : Response := ⟨status, [], []⟩

def typed (status : Nat) (type : String) (body : Bytes) : Response :=
  ⟨status, [("content-type", type)], body⟩

def text (status : Nat) (s : String) : Response :=
  typed status "text/plain; charset=utf-8" (Utf8.encode s)

def json (body : Bytes) : Response := typed 200 "application/json" body

def html (s : String) : Response :=
  typed 200 "text/html; charset=utf-8" (Utf8.encode s)

def isSuccess (r : Response) : Bool := 200 ≤ r.status && r.status < 300

def withHeader (r : Response) (name value : String) : Response :=
  { r with headers := Headers.set r.headers name value }

end Response

/-- What answers requests, acting on a state. -/
abbrev Handler (σ : Type) := Request → StateM σ Response

/-- What stands before a handler. -/
abbrev Layer (σ : Type) := Handler σ → Handler σ

end Telemetry.Http
