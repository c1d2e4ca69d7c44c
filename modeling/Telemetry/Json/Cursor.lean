import Telemetry.Text.Utf8
import Telemetry.Text.Quoted
import Telemetry.Binary64.Text

/-!
# Places and faults in a document

A document is read from its bytes by a cursor that knows the line and the
column it has reached.  Every fault of a document is a constructor of `Fault`,
and an error is a fault at a place.
-/

namespace Telemetry.Json

/-- How much of a document has been consumed: the number of the line, from one,
and the bytes consumed of that line. -/
structure Position where
  line : Nat
  column : Nat
  deriving DecidableEq, Repr

def Position.start : Position := ⟨1, 0⟩

/-- The place after one more byte. -/
def Position.after (p : Position) (b : UInt8) : Position :=
  if b = 0x0A then ⟨p.line + 1, 0⟩ else ⟨p.line, p.column + 1⟩

/-- The place after more bytes. -/
def Position.afterAll (p : Position) (bytes : Bytes) : Position :=
  bytes.foldl Position.after p

/-- What stands where something else is expected. -/
inductive Found where
  | null
  | boolean (value : Bool)
  | integer (value : Int)
  | real (value : Binary64)
  | text (value : String)
  | sequence
  | map
  deriving DecidableEq, Repr

def Found.describe : Found → String
  | .null => "null"
  | .boolean value => s!"boolean `{value}`"
  | .integer value => s!"integer `{value}`"
  | .real value => s!"floating point `{String.ofList value.toNumberChars}`"
  | .text value => s!"string {Text.quote value}"
  | .sequence => "sequence"
  | .map => "map"

/-- Why a document is refused. -/
inductive Fault where
  | endInList
  | endInObject
  | endInText
  | endInValue
  | expectedColon
  | expectedListCommaOrEnd
  | expectedObjectCommaOrEnd
  | expectedWord
  | expectedValue
  | invalidEscape
  | invalidNumber
  | numberOutOfRange
  | invalidCodePoint
  | controlCharacter
  | keyNotText
  | loneSurrogate
  | endInEscape
  | trailingComma
  | trailingCharacters
  /-- A value of another type than the expected one. -/
  | wrongType (found : Found) (expected : String)
  /-- An integer beyond the range of the expected type. -/
  | wrongValue (value : Int) (expected : String)
  /-- A sequence that ends before the field it must hold. -/
  | wrongLength (length : Nat) (expected : String)
  | missingField (name : String)
  | duplicateField (name : String)
  deriving DecidableEq, Repr

def Fault.message : Fault → String
  | .endInList => "EOF while parsing a list"
  | .endInObject => "EOF while parsing an object"
  | .endInText => "EOF while parsing a string"
  | .endInValue => "EOF while parsing a value"
  | .expectedColon => "expected `:`"
  | .expectedListCommaOrEnd => "expected `,` or `]`"
  | .expectedObjectCommaOrEnd => "expected `,` or `\x7d`"
  | .expectedWord => "expected ident"
  | .expectedValue => "expected value"
  | .invalidEscape => "invalid escape"
  | .invalidNumber => "invalid number"
  | .numberOutOfRange => "number out of range"
  | .invalidCodePoint => "invalid unicode code point"
  | .controlCharacter =>
    "control character (\\u0000-\\u001F) found while parsing a string"
  | .keyNotText => "key must be a string"
  | .loneSurrogate => "lone leading surrogate in hex escape"
  | .endInEscape => "unexpected end of hex escape"
  | .trailingComma => "trailing comma"
  | .trailingCharacters => "trailing characters"
  | .wrongType found expected =>
    s!"invalid type: {found.describe}, expected {expected}"
  | .wrongValue value expected =>
    s!"invalid value: integer `{value}`, expected {expected}"
  | .wrongLength length expected =>
    s!"invalid length {length}, expected {expected}"
  | .missingField name => s!"missing field `{name}`"
  | .duplicateField name => s!"duplicate field `{name}`"

/-- A fault and the place where it was noticed. -/
structure Error where
  fault : Fault
  position : Position
  deriving DecidableEq, Repr

def Error.message (e : Error) : String :=
  s!"{e.fault.message} at line {e.position.line} column {e.position.column}"

/-- The bytes still to be read and the place reached. -/
structure Cursor where
  rest : Bytes
  position : Position
  deriving Repr

namespace Cursor

/-- The cursor before a document. -/
def ofBytes (bytes : Bytes) : Cursor := ⟨bytes, .start⟩

def peek (c : Cursor) : Option UInt8 := c.rest.head?

/-- The cursor after the next byte. -/
def advance (c : Cursor) : Cursor :=
  match c.rest with
  | [] => c
  | b :: rest => ⟨rest, c.position.after b⟩

def fail {α : Type} (c : Cursor) (fault : Fault) : Except Error α :=
  .error ⟨fault, c.position⟩

/-- A fault of the next byte: the place is the one after it. -/
def failNext {α : Type} (c : Cursor) (fault : Fault) : Except Error α :=
  .error ⟨fault, c.advance.position⟩

def isSpace (b : UInt8) : Bool :=
  b == 0x20 || b == 0x0A || b == 0x09 || b == 0x0D

/-- The cursor after the white space that begins `bytes`. -/
def afterSpace (p : Position) : Bytes → Cursor
  | [] => ⟨[], p⟩
  | b :: rest =>
    if isSpace b then afterSpace (p.after b) rest else ⟨b :: rest, p⟩

/-- The cursor after white space. -/
def skipSpace (c : Cursor) : Cursor :=
  afterSpace c.position c.rest

def readWord : Bytes → Cursor → Except Error Cursor
  | [], c => .ok c
  | expected :: word, c =>
    match c.rest with
    | [] => c.fail .endInValue
    | b :: _ =>
      if b = expected then readWord word c.advance
        else c.advance.fail .expectedWord

end Cursor

end Telemetry.Json
