import Telemetry.Binary64.Decimal

/-!
# Texts of binary64 numbers

The two spellings that are written, positional and scientific, both from the
shortest decimal that reads back, and the grammar that is read from plain text:
a sign, digits with a point anywhere among them, an exponent, or one of the
words for infinity and NaN in any case.
-/

namespace Telemetry

namespace Decimal

def order (d : Decimal) : Int :=
  (digits d.coefficient).length - 1 + d.exponent

/-- The digits with a point at their place; a whole number is followed
by `suffixOfWhole`. -/
def positional (suffixOfWhole : List Char) (d : Decimal) : List Char :=
  let ds := digits d.coefficient
  if 0 ≤ d.exponent then
    ds ++ List.replicate d.exponent.natAbs '0' ++ suffixOfWhole
  else
    let places := d.exponent.natAbs
    if places < ds.length then
      ds.take (ds.length - places) ++ '.' :: ds.drop (ds.length - places)
    else
      '0' :: '.' :: (List.replicate (places - ds.length) '0' ++ ds)

/-- One digit, a point if more digits follow, and the power of
ten with its sign. -/
def scientific (d : Decimal) : List Char :=
  let power := d.order
  let mark := if power < 0 then ['e', '-'] else ['e', '+']
  let tail := mark ++ digits power.natAbs
  match digits d.coefficient with
  | [] => tail
  | [first] => first :: tail
  | first :: rest => first :: '.' :: rest ++ tail

end Decimal

namespace Binary64

/-- Puts a minus sign before the text of a negative number. -/
def signed (x : Binary64) (magnitude : List Char) : List Char :=
  if x.isNegative then '-' :: magnitude else magnitude

/-- The text of a gauge: positional at every magnitude, without a point when
whole; of two equally near decimals the greater one. -/
def toChars (x : Binary64) : List Char :=
  if x.isNaN then ['N', 'a', 'N']
  else if x.isFinite then x.signed ((x.shortest .up).positional [])
  else x.signed ['i', 'n', 'f']

def toText (x : Binary64) : String :=
  String.ofList x.toChars

/-- The least power of ten whose number is written
positionally in a document. -/
def leastPositionalOrder : Int := -5

/-- The least power of ten from which a number is written
scientifically in a document. -/
def leastScientificOrder : Int := 16

/-- The text of a finite number in a document: always with a point or an
exponent, so that it is never read as an integer; of two equally near
decimals the even one. -/
def toNumberChars (x : Binary64) : List Char :=
  let d := x.shortest .even
  x.signed <|
    if leastPositionalOrder ≤ d.order ∧ d.order < leastScientificOrder then
      d.positional ['.', '0']
    else d.scientific

/-- The value of a run of decimal digits, read after a value already known. -/
def digitsValue (start : Nat) (ds : List Char) : Nat :=
  ds.foldl (fun n c => n * 10 + (c.toNat - '0'.toNat)) start

/-- Reads the exponent that may end a number: nothing, or a mark,
a sign and digits. -/
def readExponent? : List Char → Option Int
  | [] => some 0
  | c :: rest =>
    if c = 'e' ∨ c = 'E' then
      let (negative, ds) := match rest with
        | '+' :: ds => (false, ds)
        | '-' :: ds => (true, ds)
        | ds => (false, ds)
      if ds ≠ [] ∧ ds.all Char.isDigit then
        some (if negative then -(digitsValue 0 ds : Int) else digitsValue 0 ds)
      else none
    else none

/-- Reads an unsigned decimal: digits with at most one point, at least one
digit, and an exponent. -/
def readDecimal? (cs : List Char) : Option Decimal :=
  let whole := cs.takeWhile Char.isDigit
  let rest := cs.dropWhile Char.isDigit
  let (places, rest) := match rest with
    | '.' :: more => (more.takeWhile Char.isDigit, more.dropWhile Char.isDigit)
    | _ => ([], rest)
  if whole = [] ∧ places = [] then none
  else
    (readExponent? rest).map fun e =>
      ⟨digitsValue 0 (whole ++ places), e - places.length⟩

def lowerAscii (cs : List Char) : List Char :=
  cs.map Char.toLower

/-- Reads an unsigned number: a decimal, or a word for infinity or NaN. -/
def readMagnitude? (cs : List Char) : Option Binary64 :=
  match readDecimal? cs with
  | some d => some (ofDecimal false d)
  | none =>
    let word := String.ofList (lowerAscii cs)
    if word = "inf" ∨ word = "infinity" then some (infinity false)
    else if word = "nan" then some nan
    else none

def ofText? (text : String) : Option Binary64 :=
  match text.toList with
  | '-' :: cs => (readMagnitude? cs).map negate
  | '+' :: cs => readMagnitude? cs
  | cs => readMagnitude? cs

end Binary64

end Telemetry
