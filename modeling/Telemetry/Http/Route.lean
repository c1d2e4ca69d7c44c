import Telemetry.Text.Hex
import Telemetry.Text.Blank

/-!
# Routes

The paths that are served.  A path is cut at its slashes; what stands between
them may be empty, but not at the end of a path.  Parts that name a metric are
percent-encoded text.
-/

namespace Telemetry.Http

/-- What a path means; parts of paths are given as they were written. -/
inductive Route where
  | index
  | updateMetric
  | updateBatch
  | readMetric
  | updateByPath (kind name value : String)
  | readByPath (kind name : String)
  | ping
  deriving DecidableEq, Repr

namespace Route

def ofPath? (path : String) : Option Route :=
  match Text.splitOn '/' path with
  | ["", ""] => some .index
  | ["", "ping"] => some .ping
  | ["", "update", ""] => some .updateMetric
  | ["", "updates", ""] => some .updateBatch
  | ["", "value", ""] => some .readMetric
  | ["", "update", kind, name, value] =>
    if value.isEmpty then none else some (.updateByPath kind name value)
  | ["", "value", kind, name] =>
    if name.isEmpty then none else some (.readByPath kind name)
  | _ => none

def takesJson : Route → Bool
  | .updateMetric | .updateBatch | .readMetric => true
  | _ => false

def methods : Route → List String
  | .index | .readByPath _ _ | .ping => ["GET", "HEAD"]
  | _ => ["POST"]

end Route

/-- Undoes percent-encoding; a percent sign that does not begin
an encoding stays. -/
def percentDecode : Bytes → Bytes
  | 0x25 :: a :: b :: rest =>
    match Hex.value? a, Hex.value? b with
    | some high, some low => (high * 16 + low) :: percentDecode rest
    | _, _ => 0x25 :: percentDecode (a :: b :: rest)
  | b :: rest => b :: percentDecode rest
  | [] => []

def decodePart? (part : String) : Option String :=
  Utf8.decode? (percentDecode (Utf8.encode part))

end Telemetry.Http
