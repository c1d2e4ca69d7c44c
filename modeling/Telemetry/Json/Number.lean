import Telemetry.Json.Cursor

/-!
# Numbers in documents

A number without a fraction, an exponent or excess digits is an integer; every
other one is a binary64 number.  Of the digits as many are taken as fit a word
of 64 bits, the others only count.  The word is rounded to binary64 and then
multiplied or divided by a power of ten that is itself rounded, so a number
with many digits may be read as a neighbour of the nearest one.
-/

namespace Telemetry.Json

/-- A number as it is read. -/
inductive Number where
  | natural (value : Nat)
  | negative (value : Int)
  | real (value : Binary64)
  deriving Repr

def Number.found : Number → Found
  | .natural value => .integer value
  | .negative value => .integer value
  | .real value => .real value

def wordBound : Nat := UInt64.size

def signedBound : Nat := 0x8000000000000000

def exponentBound : Nat := 0x80000000

/-- The greatest power of ten that is a finite binary64 number. -/
def greatestPower : Nat := 308

def powerOfTen (k : Nat) : Binary64 :=
  .ofDecimal false ⟨1, k⟩

def isDigit (b : UInt8) : Bool :=
  0x30 ≤ b && b ≤ 0x39

def digitValue (b : UInt8) : Nat :=
  b.toNat - 0x30

/-- Appends digits to a number as long as the result stays below `bound`; the
digits from the first that does not fit are left over. -/
def absorb (bound : Nat) (n : Nat) : Bytes → Nat × Bytes
  | [] => (n, [])
  | d :: ds =>
    if n * 10 + digitValue d < bound then
      absorb bound (n * 10 + digitValue d) ds
    else (n, d :: ds)

/-- The digits at a cursor and the cursor after them. -/
def Cursor.digits (c : Cursor) : Bytes × Cursor :=
  let ds := c.rest.takeWhile isDigit
  (ds, ⟨c.rest.dropWhile isDigit, c.position.afterAll ds⟩)

/-- `magnitude * 10 ^ exponent`, rounded at the conversion and at the product or
quotient; none if it is not finite. -/
def scaled? (significand : Nat) (exponent : Int) : Option Binary64 :=
  let f := Binary64.ofNat significand
  let inRange (e : Int) : Bool := e.natAbs ≤ greatestPower
  if inRange exponent then
    if 0 ≤ exponent then
      let product := f.mul (powerOfTen exponent.natAbs)
      if product.isFinite then some product else none
    else some (f.div (powerOfTen exponent.natAbs))
  else if significand = 0 then some .zero
  else if 0 ≤ exponent then none
  else
    let g := f.div (powerOfTen greatestPower)
    let exponent := exponent + greatestPower
    -- two such steps leave nothing of a word
    if inRange exponent then some (g.div (powerOfTen exponent.natAbs))
      else some .zero

def withSign (negative : Bool) (x : Binary64) : Binary64 :=
  if negative then x.negate else x

/-- Finishes a number whose digits and exponent are known. -/
def Cursor.finishReal (c : Cursor) (negative : Bool) (significand : Nat)
    (exponent : Int) : Except Error (Number × Cursor) :=
  match scaled? significand exponent with
  | some x => .ok (.real (withSign negative x), c)
  | none => c.fail .numberOutOfRange

def clipExponent (e : Int) : Int :=
  max (-(exponentBound : Int)) (min (exponentBound - 1) e)

def Cursor.readExponent (c : Cursor) (negative : Bool) (significand : Nat)
    (exponent : Int) : Except Error (Number × Cursor) :=
  let c := c.advance
  let (down, c) :=
    if c.peek = some 0x2B then (false, c.advance)
    else if c.peek = some 0x2D then (true, c.advance)
    else (false, c)
  match c.rest with
  | [] => c.fail .endInValue
  | d :: _ =>
    if !isDigit d then c.advance.fail .invalidNumber
    else
      let (ds, after) := c.digits
      let (size, excess) := absorb exponentBound 0 ds
      if excess = [] then
        after.finishReal negative significand
          (clipExponent (if down then exponent - size else exponent + size))
      else if significand ≠ 0 ∧ !down then
        -- noticed at the first digit that does not fit
        .error ⟨.numberOutOfRange,
          c.position.afterAll (ds.take (ds.length - excess.length + 1))⟩
      else .ok (.real (withSign negative .zero), after)

/-- Finishes a number whose digits end at the cursor, an exponent
possibly following. -/
def Cursor.finishDigits (c : Cursor) (negative : Bool) (significand : Nat)
    (exponent : Int) : Except Error (Number × Cursor) :=
  if c.peek = some 0x65 ∨ c.peek = some 0x45 then
    c.readExponent negative significand exponent
  else c.finishReal negative significand exponent

/-- Reads the places of a number from the point on. -/
def Cursor.readPlaces (c : Cursor) (negative : Bool) (significand : Nat)
    (exponent : Int) : Except Error (Number × Cursor) :=
  let (ds, after) := c.advance.digits
  if ds = [] then
    if after.rest = [] then after.fail .endInValue
      else after.failNext .invalidNumber
  else
    let (significand, excess) := absorb wordBound significand ds
    after.finishDigits negative significand
      (exponent - (ds.length - excess.length : Nat))

/-- Finishes a number whose integer digits end at the cursor; `excess` of
them did not fit. -/
def Cursor.finishInteger (c : Cursor) (negative : Bool)
    (significand excess : Nat) : Except Error (Number × Cursor) :=
  if c.peek = some 0x2E then c.readPlaces negative significand excess
  else if c.peek = some 0x65 ∨ c.peek = some 0x45 then
    c.readExponent negative significand excess
  else if excess ≠ 0 then c.finishReal negative significand excess
  else if !negative then .ok (.natural significand, c)
  else if 0 < significand ∧ significand ≤ signedBound then
    .ok (.negative (-significand), c)
  else .ok (.real (Binary64.ofNat significand).negate, c)

/-- Reads a number from its first digit on; the sign has been consumed. -/
def Cursor.readNumber (c : Cursor) (negative : Bool) :
    Except Error (Number × Cursor) :=
  match c.rest with
  | [] => c.fail .endInValue
  | d :: rest =>
    if d = 0x30 then
      if (rest.head?.map isDigit).getD false then
        c.advance.failNext .invalidNumber
      else c.advance.finishInteger negative 0 0
    else if isDigit d then
      let (ds, after) := c.digits
      let (significand, excess) := absorb wordBound 0 ds
      after.finishInteger negative significand excess.length
    else c.advance.fail .invalidNumber

/-- Passes over the exponent of a number from its mark on. -/
def Cursor.passExponent (c : Cursor) : Except Error Cursor :=
  let c := c.advance
  let c := if c.peek = some 0x2B ∨ c.peek = some 0x2D then c.advance else c
  if (c.peek.map isDigit).getD false then .ok c.digits.2
  else c.advance.fail .invalidNumber

/-- Passes over what may follow the digits of a number. -/
def Cursor.passFraction (c : Cursor) : Except Error Cursor :=
  if c.peek = some 0x2E then
    let (ds, after) := c.advance.digits
    if ds = [] then after.failNext .invalidNumber
    else if after.peek = some 0x65 ∨ after.peek = some 0x45 then
      after.passExponent
    else .ok after
  else if c.peek = some 0x65 ∨ c.peek = some 0x45 then c.passExponent
  else .ok c

/-- Passes over a number from its first digit on, checking its form only. -/
def Cursor.passNumber (c : Cursor) : Except Error Cursor :=
  match c.rest with
  | [] => c.fail .invalidNumber
  | d :: rest =>
    if d = 0x30 then
      if (rest.head?.map isDigit).getD false then
        c.advance.failNext .invalidNumber
      else c.advance.passFraction
    else if isDigit d then c.digits.2.passFraction
    else c.advance.fail .invalidNumber

def writeInt64 (i : Int64) : Bytes :=
  Utf8.encode (toString i.toInt)

/-- The bytes of a number; one that is not finite has no spelling and
is written as null. -/
def writeReal (x : Binary64) : Bytes :=
  if x.isFinite then x.toNumberChars.map fun c => UInt8.ofNat c.toNat
  else [0x6E, 0x75, 0x6C, 0x6C]

end Telemetry.Json
