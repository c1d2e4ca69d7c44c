import Telemetry.Text.Base64
import Telemetry.Text.Blank

/-!
# Armoured keys

A key file holds base64 lines between a line that begins a block and a line that
ends it.  Public keys are read leniently: the first block counts and the length
of its lines does not matter.  Private keys are read strictly: lines of
sixty-four characters, a matching end, and nothing after it but an end of line.
-/

namespace Telemetry.Pem

/-- A block: its label and the bytes it holds. -/
structure Block where
  label : String
  contents : Bytes
  deriving DecidableEq, Repr

def dashes : Bytes := List.replicate 5 0x2D

/-- What begins a block, up to its label. -/
def beginning : Bytes := dashes ++ Utf8.encode "BEGIN "

/-- What ends a block, up to its label. -/
def ending : Bytes := dashes ++ Utf8.encode "END "

def lines : Bytes → List Bytes
  | [] => []
  | b :: rest =>
    if b = 0x0A then [b] :: lines rest
    else
      match lines rest with
      | line :: more => (b :: line) :: more
      | [] => [[b]]

/-- The bytes after a beginning, if they have it. -/
def strip? (front : Bytes) (bytes : Bytes) : Option Bytes :=
  if front.isPrefixOf bytes then some (bytes.drop front.length) else none

/-- The bytes before an end, if they have it. -/
def stripEnd? (back : Bytes) (bytes : Bytes) : Option Bytes :=
  if back.isSuffixOf bytes then some (bytes.take (bytes.length - back.length))
    else none

def hasDashes : Bytes → Bool
  | [] => false
  | b :: rest => dashes.isPrefixOf (b :: rest) || hasDashes rest

/-- The lines before the one that ends a block, without their blank ends. -/
def bodyLines? : List Bytes → Option (List String)
  | [] => none
  | line :: rest => do
    let text ← Utf8.decode? line
    if ending.isPrefixOf line then some []
    else
      let more ← bodyLines? rest
      some (Text.trimEnd text :: more)

/-- The first block among lines, whatever stands before it. -/
def firstBlock? : List Bytes → Option Block
  | [] => none
  | line :: rest =>
    match Utf8.decode? line, strip? beginning line with
    | some _, some after =>
      if hasDashes after then do
        let label ← Utf8.decode? (after.takeWhile (· != 0x2D))
        let body ← bodyLines? rest
        let contents ← Base64.decode? (body.flatMap Utf8.encode)
        some ⟨label, contents⟩
      else none
    | _, _ => firstBlock? rest

def readFirst? (bytes : Bytes) : Option Block :=
  firstBlock? (lines bytes)

def skipPreamble? : Bytes → Option Bytes
  | [] => none
  | b :: rest =>
    if b = 0 then none
    else if b = 0x0A ∧ beginning.isPrefixOf rest then some rest
    else skipPreamble? rest

/-- Whether a byte may stand in a label. -/
def isLabelByte (b : UInt8) : Bool :=
  0x21 ≤ b && b ≤ 0x7E && b != 0x2D

/-- Whether a label has no two blanks in a row and no blank at its beginning. -/
def isLabel : Bool → Bytes → Bool
  | _, [] => true
  | afterBlank, b :: rest =>
    if isLabelByte b then isLabel false rest
    else (b == 0x20 || b == 0x09) && !afterBlank && isLabel true rest

/-- The bytes without the end of line that ends them. -/
def stripLineEnd? (bytes : Bytes) : Option Bytes :=
  match bytes.reverse with
  | 0x0A :: 0x0D :: rest => some rest.reverse
  | 0x0A :: rest => some rest.reverse
  | 0x0D :: rest => some rest.reverse
  | _ => none

/-- The bytes without the end of line that begins them. -/
def stripLineStart? : Bytes → Option Bytes
  | 0x0D :: 0x0A :: rest => some rest
  | 0x0A :: rest => some rest
  | 0x0D :: rest => some rest
  | _ => none

def lineWidth : Nat := 64

/-- The characters of lines that are full but for the last one. -/
def unwrap? : Nat → Bytes → Option Bytes
  | 0, _ => none
  | fuel + 1, bytes =>
    match bytes.drop lineWidth with
    | [] =>
      some (bytes.reverse.dropWhile (fun b => b == 0x0A || b == 0x0D)).reverse
    | rest => do
      let rest ← stripLineStart? rest
      let more ← unwrap? fuel rest
      some (bytes.take lineWidth ++ more)

/-- The only block of a strictly formed file; text may stand
on lines before it. -/
def readStrict? (bytes : Bytes) : Option Block := do
  let bytes ← if beginning.isPrefixOf bytes then some bytes
    else skipPreamble? bytes
  let after ← strip? beginning bytes
  let label := after.takeWhile (· != 0x2D)
  if !isLabel true label then none
  else
    let body ← strip? dashes (after.drop label.length)
    let body := (stripLineEnd? body).getD body
    let body ← stripEnd? dashes body
    let body ← stripEnd? label body
    let body ← stripEnd? ending body
    let body ← stripLineStart? body
    let body ← stripLineEnd? body
    let body ← unwrap? (body.length + 1) body
    let contents ← Base64.decode? body
    let label ← Utf8.decode? label
    some ⟨label, contents⟩

end Telemetry.Pem
