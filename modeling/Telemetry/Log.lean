import Telemetry.Text.Blank
import Telemetry.Text.Cut
import Telemetry.Binary64.Basic

/-!
# What a log shows of a response

The log of a request shows how long it took, in the greatest unit that fits, and
the beginning of a body that gives the reason of a failure.
-/

namespace Telemetry.Log

/-- What is shown of a body of at most `room` bytes, or of the beginning
of a longer one: it is cut at the last place from `room` backwards where
a text may be cut. -/
def excerpt (room : Nat) (body : Bytes) : Except Halt String :=
  match Utf8.decode? body with
  | none => .ok "<non-utf8 body>"
  | some s =>
    if room < body.length then
      (· ++ "...") <$> Utf8.cut s (Utf8.boundaryUpTo body room)
    else .ok (Text.trimEnd s)

/-- The text of a finite positive number with one decimal; a tie goes
to the even digit. -/
def oneDecimal (x : Binary64) : String :=
  let tenths := Binary64.roundDiv (x.units * 10) Binary64.unitsPerOne
  s!"{tenths / 10}.{tenths % 10}"

/-- The microseconds in a second. -/
def second : Nat := 1000000

/-- How long something took that took so many microseconds: whole microseconds
or milliseconds below a second, seconds with one decimal from there. -/
def elapsed (us : Nat) : String :=
  if us < 1000 then s!"{us}µs"
  else if us < second then s!"{us / 1000}ms"
  else s!"{oneDecimal ((Binary64.ofNat us).div (Binary64.ofNat second))}s"

end Telemetry.Log
