import Telemetry.Text.Integer
import Telemetry.Toml.Text
import Telemetry.Binary64.Text

/-!
# Numbers, dates and times of a configuration file

Digits may be grouped by single underscores.  A decimal integer has no leading
zero; hexadecimal, octal and binary ones have no sign.  A date must be one of
the calendar, and a second may be a leap second.
-/

namespace Telemetry.Toml

/-- The digits that follow a first one, underscores between two digits aside. -/
def digitsAfter (p : Char → Bool) : List Char → List Char × List Char
  | [] => ([], [])
  | '_' :: c :: rest =>
    if p c then
      let (ds, rest) := digitsAfter p rest
      (c :: ds, rest)
    else ([], '_' :: c :: rest)
  | c :: rest =>
    if p c then
      let (ds, rest) := digitsAfter p rest
      (c :: ds, rest)
    else ([], c :: rest)

def daysIn (year month : Nat) : Nat :=
  if month = 2 then
    if year % 4 = 0 ∧ (year % 100 ≠ 0 ∨ year % 400 = 0) then 29 else 28
  else if month ∈ [4, 6, 9, 11] then 30
  else 31

namespace Reader

/-- Reads digits and drops the underscores between them. -/
def digits (p : Char → Bool) : Reader (List Char) := do
  let first ← satisfy p
  return first :: (← modifyGet (digitsAfter p))

/-- Reads a number of exactly `count` decimal digits within bounds. -/
def fixed (count least greatest : Nat) : Reader Nat := do
  let ds := (← get).take count
  guard (ds.length = count ∧ ds.all Char.isDigit)
  modify (·.drop count)
  let n := Binary64.digitsValue 0 ds
  guard (least ≤ n ∧ n ≤ greatest)
  return n

/-- Reads a year, a month and a day of it. -/
def date : Reader Unit := do
  let year ← fixed 4 0 9999
  word ['-']
  let month ← fixed 2 1 12
  word ['-']
  let _ ← fixed 2 1 (daysIn year month)

/-- Reads hours, minutes and seconds, which may have a fraction. -/
def time : Reader Unit := do
  let _ ← fixed 2 0 23
  word [':']
  let _ ← fixed 2 0 59
  word [':']
  let _ ← fixed 2 0 60
  let _ ← attempt do
    word ['.']
    let fraction ← takeWhile Char.isDigit
    guard (fraction ≠ [])

def offset : Reader Unit := do
  match ← next with
  | 'Z' => return ()
  | 'z' => return ()
  | c =>
    guard (c = '+' ∨ c = '-')
    let _ ← fixed 2 0 23
    word [':']
    let _ ← fixed 2 0 59

/-- Reads a date, a time, or both. -/
def moment : Reader Value := do
  let dated := do
    date
    let _ ← attempt do
      let _ ← satisfy fun c => c == 'T' || c == 't' || c == ' '
      time
      let _ ← attempt offset
  dated <|> time
  return .moment

/-- Reads a sign, and tells whether it is a minus. -/
def sign : Reader Bool := do
  match ← peek with
  | some '+' => word ['+']; return false
  | some '-' => word ['-']; return true
  | _ => return false

/-- Reads decimal digits without a leading zero. -/
def wholeDigits : Reader (List Char) := do
  match ← peek with
  | some '0' => word ['0']; return ['0']
  | _ => digits Char.isDigit

def exponent : Reader (List Char) := do
  let _ ← satisfy fun c => c == 'e' || c == 'E'
  let negative ← sign
  let ds ← digits Char.isDigit
  return if negative then 'e' :: '-' :: ds else 'e' :: ds

/-- Reads a point and the digits after it. -/
def fraction : Reader (List Char) := do
  word ['.']
  return '.' :: (← digits Char.isDigit)

/-- Reads a word for a number that is not finite. -/
def specialReal (negative : Bool) : Reader Binary64 :=
  (word ['i', 'n', 'f'] *> pure (Binary64.infinity negative))
    <|> (word ['n', 'a', 'n'] *> pure Binary64.nan)

/-- Reads a decimal with a fraction, an exponent or both.  One that is too great
is refused unless it is negative. -/
def decimalReal (negative : Bool) : Reader Binary64 := do
  let whole ← wholeDigits
  let fraction ← attempt fraction
  let exponent ← attempt exponent
  guard (fraction.isSome ∨ exponent.isSome)
  let x ← Binary64.readMagnitude?
    (whole ++ fraction.getD [] ++ exponent.getD [])
  guard (negative ∨ x.isFinite)
  return if negative then x.negate else x

def real : Reader Value := do
  let negative ← sign
  .real <$> (decimalReal negative <|> specialReal negative)

def ofInt? (n : Int) : Option Value := (Text.int64OfInt? n).map Value.integer

def basedInteger (mark : Char) (base : Nat) (p : Char → Bool) :
    Reader Value := do
  word ['0', mark]
  let ds ← digits p
  ofInt? (ds.foldl (fun n c => n * base + ((hexNumber? [c]).getD 0)) 0)

def isHexDigit (c : Char) : Bool :=
  (hexNumber? [c]).isSome

def integer : Reader Value := do
  match (← get).take 2 with
  | ['0', 'x'] => basedInteger 'x' 16 isHexDigit
  | ['0', 'o'] => basedInteger 'o' 8 fun c => '0' ≤ c && c ≤ '7'
  | ['0', 'b'] => basedInteger 'b' 2 fun c => c == '0' || c == '1'
  | _ =>
    let negative ← sign
    let n : Int := Binary64.digitsValue 0 (← wholeDigits)
    ofInt? (if negative then -n else n)

end Reader

end Telemetry.Toml
