import Telemetry.Json.Text
import Telemetry.Json.Number

/-!
# Reading typed values

A reader knows what it expects.  It reads the value it wants or says what it
found instead; values that nobody asked for are passed over at any depth.
Objects and arrays are read by a step that is given each member in turn, and a
fault that belongs to the container as a whole is placed where the container
has been closed.
-/

namespace Telemetry.Json

/-- The bytes that follow the first letter of `null`. -/
def nullTail : Bytes := [0x75, 0x6C, 0x6C]

/-- The bytes that follow the first letter of `true`. -/
def trueTail : Bytes := [0x72, 0x75, 0x65]

/-- The bytes that follow the first letter of `false`. -/
def falseTail : Bytes := [0x61, 0x6C, 0x73, 0x65]

namespace Cursor

def sees (c : Cursor) (b : UInt8) : Bool :=
  c.peek == some b

def seesDigit (c : Cursor) : Bool :=
  (c.peek.map isDigit).getD false

/-- Refuses the value at the cursor, naming it and what was expected. -/
def refuse {α : Type} (c : Cursor) (expected : String) : Except Error α := do
  if c.sees 0x6E then
    let c ← readWord nullTail c.advance
    c.fail (.wrongType .null expected)
  else if c.sees 0x74 then
    let c ← readWord trueTail c.advance
    c.fail (.wrongType (.boolean true) expected)
  else if c.sees 0x66 then
    let c ← readWord falseTail c.advance
    c.fail (.wrongType (.boolean false) expected)
  else if c.sees 0x2D then
    let (n, c) ← c.advance.readNumber true
    c.fail (.wrongType n.found expected)
  else if c.seesDigit then
    let (n, c) ← c.readNumber false
    c.fail (.wrongType n.found expected)
  else if c.sees quoteByte then
    let (s, c) ← c.advance.readText
    c.fail (.wrongType (.text s) expected)
  else if c.sees 0x5B then c.fail (.wrongType .sequence expected)
  else if c.sees 0x7B then c.fail (.wrongType .map expected)
  else c.failNext .expectedValue

/-- The cursor at the next token; the document must not end before it. -/
def token (c : Cursor) : Except Error Cursor :=
  let c := c.skipSpace
  if c.rest = [] then c.fail .endInValue else .ok c

def text (expected : String) (c : Cursor) : Except Error (String × Cursor) := do
  let c ← c.token
  if c.sees quoteByte then c.advance.readText else c.refuse expected

/-- Reads a number of either sign. -/
def number (expected : String) (c : Cursor) :
    Except Error (Number × Cursor) := do
  let c ← c.token
  if c.sees 0x2D then c.advance.readNumber true
  else if c.seesDigit then c.readNumber false
  else c.refuse expected

def int64 (c : Cursor) : Except Error (Int64 × Cursor) := do
  let (n, c) ← c.number "i64"
  match n with
  | .natural value =>
    if value < signedBound then return (Int64.ofNat value, c)
    else c.fail (.wrongValue value "i64")
  | .negative value => return (Int64.ofInt value, c)
  | .real value => c.fail (.wrongType (.real value) "i64")

/-- Reads a binary64 number; an integer is rounded to the nearest one. -/
def real (c : Cursor) : Except Error (Binary64 × Cursor) := do
  let (n, c) ← c.number "f64"
  match n with
  | .natural value => return (.ofNat value, c)
  | .negative value => return (.ofInt value, c)
  | .real value => return (value, c)

/-- Reads null as absence and everything else by `read`. -/
def optional {α : Type} (read : Cursor → Except Error (α × Cursor))
    (c : Cursor) : Except Error (Option α × Cursor) := do
  let c := c.skipSpace
  if c.sees 0x6E then
    let c ← readWord nullTail c.advance
    return (none, c)
  else
    let (a, c) ← read c
    return (some a, c)

/-- Reads the colon between a key and its value. -/
def colon (c : Cursor) : Except Error Cursor :=
  let c := c.skipSpace
  if c.sees 0x3A then .ok c.advance
  else if c.rest = [] then c.fail .endInObject
  else c.failNext .expectedColon

/-- A container that is being passed over. -/
inductive Frame where
  | list
  | object
  deriving DecidableEq, Repr

def Frame.closing : Frame → UInt8
  | .list => 0x5D
  | .object => 0x7D

/-- After an element of the innermost container: closes containers for as long
as they end, then consumes the comma before the next element; none when the
outermost one is closed. -/
def passEnds (c : Cursor) (frame : Frame) (stack : List Frame) :
    Except Error (Cursor × Option (Frame × List Frame)) :=
  let c := c.skipSpace
  match c.peek with
  | none =>
    c.fail (match frame with | .list => .endInList | .object => .endInObject)
  | some b =>
    if b = 0x2C then .ok (c.advance, some (frame, stack))
    else if b = frame.closing then
      match stack with
      | [] => .ok (c.advance, none)
      | outer :: stack => passEnds c.advance outer stack
    else
      c.failNext (match frame with
        | .list => .expectedListCommaOrEnd
        | .object => .expectedObjectCommaOrEnd)

/-- Passes over a key and its colon. -/
def passKey (c : Cursor) : Except Error Cursor := do
  let c := c.skipSpace
  if c.sees quoteByte then
    let c ← c.advance.passText
    c.colon
  else if c.rest = [] then c.fail .endInObject
  else c.failNext .keyNotText

/-- Passes over a value that is neither a list nor an object. -/
def passScalar (c : Cursor) : Except Error Cursor :=
  if c.sees 0x6E then readWord nullTail c.advance
  else if c.sees 0x74 then readWord trueTail c.advance
  else if c.sees 0x66 then readWord falseTail c.advance
  else if c.sees 0x2D then c.advance.passNumber
  else if c.seesDigit then c.passNumber
  else if c.sees quoteByte then c.advance.passText
  else c.failNext .expectedValue

/-- Passes over a value inside the containers of `stack`, and over
what remains of them. -/
def passWithin : Nat → List Frame → Cursor → Except Error Cursor
  | 0, _, c => c.fail .endInValue
  | fuel + 1, stack, c => do
    let c ← c.token
    let continueAfter (ends : Cursor × Option (Frame × List Frame)) :
        Except Error Cursor :=
      match ends with
      | (c, none) => .ok c
      | (c, some (.list, stack)) => passWithin fuel (.list :: stack) c
      | (c, some (.object, stack)) => do
        let c ← c.passKey
        passWithin fuel (.object :: stack) c
    let opened (frame : Frame) : Except Error Cursor := do
      let c := c.advance.skipSpace
      if c.rest = [] then
        c.fail
          (match frame with
            | .list => .endInList
            | .object => .endInObject)
      else if c.sees frame.closing then
        match stack with
        | [] => return c.advance
        | outer :: stack => continueAfter (← c.advance.passEnds outer stack)
      else continueAfter (c, some (frame, stack))
    if c.sees 0x5B then opened .list
    else if c.sees 0x7B then opened .object
    else
      let c ← c.passScalar
      match stack with
      | [] => return c
      | frame :: stack => continueAfter (← c.passEnds frame stack)

/-- Passes over a value of any form and depth. -/
def passValue (c : Cursor) : Except Error Cursor :=
  passWithin (c.rest.length + 1) [] c

/-- A failure inside a container: one that has its place, or a fault
of the container as a whole with the cursor from which the
container's end is sought. -/
inductive Failure where
  | placed (error : Error)
  | unplaced (fault : Fault) (cursor : Cursor)

/-- A step of reading a container keeps the place of an error. -/
def placed {α : Type} (r : Except Error α) : Except Failure α :=
  r.mapError .placed

/-- Where the cursor stands after looking for the end of an object. -/
def afterObject (c : Cursor) : Cursor :=
  let c := c.skipSpace
  if c.sees 0x7D then c.advance else c

/-- Where the cursor stands after looking for the end of a list. -/
def afterList (c : Cursor) : Cursor :=
  let c := c.skipSpace
  if c.sees 0x5D then c.advance
  else if c.sees 0x2C then c.advance.skipSpace
  else c

def closeObject (c : Cursor) : Except Error Cursor :=
  let c := c.skipSpace
  if c.sees 0x7D then .ok c.advance
  else if c.sees 0x2C then c.failNext .trailingComma
  else if c.rest = [] then c.fail .endInObject
  else c.failNext .trailingCharacters

def closeList (c : Cursor) : Except Error Cursor :=
  let c := c.skipSpace
  if c.sees 0x5D then .ok c.advance
  else if c.sees 0x2C then
    let c := c.advance.skipSpace
    if c.sees 0x5D then c.failNext .trailingComma
      else c.failNext .trailingCharacters
  else if c.rest = [] then c.fail .endInList
  else c.failNext .trailingCharacters

/-- Moves to the quote of the next key; none at the end of the object. -/
def nextKey (first : Bool) (c : Cursor) :
    Except Error (Option Cursor × Cursor) :=
  let c := c.skipSpace
  match c.peek with
  | none => c.fail .endInObject
  | some b =>
    if b = 0x7D then .ok (none, c)
    else if first then
      if b = quoteByte then .ok (some c, c) else c.failNext .keyNotText
    else if b = 0x2C then
      let c := c.advance.skipSpace
      match c.peek with
      | none => c.fail .endInValue
      | some b =>
        if b = quoteByte then .ok (some c, c)
        else if b = 0x7D then c.failNext .trailingComma
        else c.failNext .keyNotText
    else c.failNext .expectedObjectCommaOrEnd

/-- Moves to the next element; none at the end of the list. -/
def nextElement (first : Bool) (c : Cursor) :
    Except Error (Option Cursor × Cursor) :=
  let c := c.skipSpace
  match c.peek with
  | none => c.fail .endInList
  | some b =>
    if b = 0x5D then .ok (none, c)
    else if first then .ok (some c, c)
    else if b = 0x2C then
      let c := c.advance.skipSpace
      match c.peek with
      | none => c.fail .endInValue
      | some b =>
        if b = 0x5D then c.failNext .trailingComma else .ok (some c, c)
    else c.failNext .expectedListCommaOrEnd

/-- Reads the value of a field of an object, which must not have
been read before. -/
def member {α : Type} (known : Option α) (key : String)
    (read : Cursor → Except Error (α × Cursor)) (c : Cursor) :
    Except Failure (α × Cursor) :=
  if known.isSome then .error (.unplaced (.duplicateField key) c)
  else placed do read (← c.colon)

/-- Reads the next element of a list; none at the end of the list. -/
def element {α : Type} (first : Bool)
    (read : Cursor → Except Error (α × Cursor)) (c : Cursor) :
    Except Failure (Option α × Cursor) := placed do
  match ← c.nextElement first with
  | (none, c) => return (none, c)
  | (some c, _) =>
    let (a, c) ← read c
    return (some a, c)

/-- Gives the members of an object to a step, each as its key and the
cursor after the key. -/
def members {σ : Type}
    (step : σ → String → Cursor → Except Failure (σ × Cursor)) :
    Nat → Bool → σ → Cursor → Except Failure (σ × Cursor)
  | 0, _, _, c => placed (c.fail .endInObject)
  | fuel + 1, first, s, c => do
    match ← placed (c.nextKey first) with
    | (none, c) => return (s, c)
    | (some c, _) =>
      let (key, c) ← placed c.advance.readText
      let (s, c) ← step s key c
      members step fuel false s c

/-- Gives the elements of a list to a step, each as the cursor before it. -/
def elements {σ : Type} (step : σ → Cursor → Except Failure (σ × Cursor)) :
    Nat → Bool → σ → Cursor → Except Failure (σ × Cursor)
  | 0, _, _, c => placed (c.fail .endInList)
  | fuel + 1, first, s, c => do
    match ← placed (c.nextElement first) with
    | (none, c) => return (s, c)
    | (some c, _) =>
      let (s, c) ← step s c
      elements step fuel false s c

/-- Closes a container whose contents have been read by `close`; a fault of the
container as a whole is placed by `after`. -/
def within {α : Type} (after : Cursor → Cursor)
    (close : Cursor → Except Error Cursor)
    (contents : Except Failure (α × Cursor)) : Except Error (α × Cursor) :=
  match contents with
  | .ok (a, c) => do
    let c ← close c
    return (a, c)
  | .error (.placed e) => .error e
  | .error (.unplaced fault c) => .error ⟨fault, (after c).position⟩

/-- Reads an object from its opening brace on by a step for its
members and a last step. -/
def object {σ α : Type} (start : σ)
    (step : σ → String → Cursor → Except Failure (σ × Cursor))
    (finish : σ → Except Fault α) (c : Cursor) : Except Error (α × Cursor) :=
  within afterObject closeObject do
    let c := c.advance
    let (s, c) ← members step (c.rest.length + 1) true start c
    match finish s with
    | .ok a => return (a, c)
    | .error fault => .error (.unplaced fault c)

/-- Reads an object of any keys and values of one type; a later
entry comes later. -/
def mapOf {α : Type} (expected : String)
    (read : Cursor → Except Error (α × Cursor)) (c : Cursor) :
    Except Error (List (String × α) × Cursor) := do
  let c ← c.token
  if c.sees 0x7B then
    let (entries, c) ← c.object []
      (fun entries key c => placed do
        let (a, c) ← read (← c.colon)
        return ((key, a) :: entries, c))
      .ok
    return (entries.reverse, c)
  else c.refuse expected

def listOf {α : Type} (read : Cursor → Except Error (α × Cursor))
    (c : Cursor) : Except Error (List α × Cursor) := do
  let c ← c.token
  if c.sees 0x5B then
    let (found, c) ← within afterList closeList do
      let c := c.advance
      elements
        (fun found c => placed do
          let (a, c) ← read c
          return (a :: found, c))
        (c.rest.length + 1) true [] c
    return (found.reverse, c)
  else c.refuse "a sequence"

end Cursor

def document {α : Type} (read : Cursor → Except Error (α × Cursor))
    (bytes : Bytes) : Except Error α := do
  let (a, c) ← read (.ofBytes bytes)
  let c := c.skipSpace
  if c.rest = [] then return a else c.failNext .trailingCharacters

end Telemetry.Json
