import Telemetry.Deflate.Tokens
import Telemetry.Deflate.CodeLengths
import Telemetry.Deflate.Inflate

/-!
# Compressing data

A short message is written under the fixed code and a longer one under a code
made for it; data that would not become shorter is stored.  What has been
written is expanded again before it is handed out, and only data that comes
back unchanged leaves in compressed form.
-/

namespace Telemetry.Deflate

def putSymbol (codes : Array Code) (symbol : Nat) (w : BitWriter) : BitWriter :=
  let code := codes.getD symbol ⟨0, 0⟩
  w.put code.length code.bits

/-- The symbol and the extra bits of a length. -/
def lengthSymbol (length : Nat) : Nat × Nat × Nat :=
  classify length (endOfBlock + 1) lengthRanges

/-- The symbol and the extra bits of a distance. -/
def distanceSymbol (distance : Nat) : Nat × Nat × Nat :=
  classify distance 0 distanceRanges

def putToken (literals distances : Array Code) (w : BitWriter) :
    Token → BitWriter
  | .literal byte => putSymbol literals byte.toNat w
  | .copy length distance =>
    let (symbol, n, extra) := lengthSymbol length
    let w := (putSymbol literals symbol w).put n extra
    let (symbol, n, extra) := distanceSymbol distance
    (putSymbol distances symbol w).put n extra

/-- Writes tokens and the end of the block. -/
def putTokens (literals distances : Array Code) (tokens : Array Token)
    (w : BitWriter) : BitWriter :=
  putSymbol literals endOfBlock (tokens.foldl (putToken literals distances) w)

/-- How often each literal and length symbol and each
distance symbol is used. -/
def countSymbols (tokens : Array Token) : Array Nat × Array Nat :=
  tokens.foldl
    (fun (literals, distances) token =>
      match token with
      | .literal byte => (literals.modify byte.toNat (· + 1), distances)
      | .copy length distance =>
        (literals.modify (lengthSymbol length).1 (· + 1),
          distances.modify (distanceSymbol distance).1 (· + 1)))
    ((Array.replicate literalLimit 0).set! endOfBlock 1,
      Array.replicate distanceLimit 0)

/-- A code length as it is written: a symbol, and extra bits
with their number. -/
structure LengthItem where
  symbol : Nat
  bits : Nat
  extra : Nat

/-- Writes a run of `n` equal code lengths as repetitions where
they save something. -/
def runItems (length : Nat) : Nat → Nat → List LengthItem
  | 0, _ => []
  | fuel + 1, n =>
    if n = 0 then []
    else if length = 0 then
      if 11 ≤ n then
        ⟨18, 7, min n 138 - 11⟩ :: runItems length fuel (n - min n 138)
      else if 3 ≤ n then [⟨17, 3, n - 3⟩]
      else ⟨0, 0, 0⟩ :: runItems length fuel (n - 1)
    else ⟨length, 0, 0⟩ :: repeatItems fuel (n - 1)
where
  /-- Repetitions of the length that was written last. -/
  repeatItems : Nat → Nat → List LengthItem
    | 0, _ => []
    | fuel + 1, n =>
      if n = 0 then []
      else if 3 ≤ n then ⟨16, 2, min n 6 - 3⟩ :: repeatItems fuel (n - min n 6)
      else ⟨length, 0, 0⟩ :: repeatItems fuel (n - 1)

def lengthItems : Nat → List Nat → List LengthItem
  | 0, _ => []
  | _, [] => []
  | fuel + 1, length :: rest =>
    let run := (rest.takeWhile (· == length)).length + 1
    runItems length (run + 1) run ++
      lengthItems fuel (rest.dropWhile (· == length))

/-- The list without the zeros at its end, but not shorter than `least`. -/
def dropZeros (least : Nat) (lengths : List Nat) : List Nat :=
  let kept := (lengths.reverse.dropWhile (· == 0)).reverse
  kept ++ List.replicate (least - kept.length) 0

def putCodes (literalLengths distanceLengths : List Nat) (w : BitWriter) :
    BitWriter :=
  let all := literalLengths ++ distanceLengths
  let items := lengthItems all.length all
  let weights :=
    items.foldl (fun a i => a.modify i.symbol (· + 1)) (Array.replicate 19 0)
  let lengths := codeLengths 7 weights.toList
  let ordered :=
    dropZeros 4 (codeLengthOrder.map fun symbol => lengths[symbol]?.getD 0)
  let codes := codesOf lengths
  let w := w.put 5 (literalLengths.length - 257)
  let w := w.put 5 (distanceLengths.length - 1)
  let w := w.put 4 (ordered.length - 4)
  let w := ordered.foldl (fun w n => w.put 3 n) w
  items.foldl (fun w i => (putSymbol codes i.symbol w).put i.bits i.extra) w

/-- Messages of fewer bytes are written under the fixed code. -/
def fixedBelow : Nat := 48

/-- The data as one block under a code. -/
def pack (bytes : Bytes) : Bytes :=
  let tokens := tokens bytes
  let w := BitWriter.empty.put 1 1
  if bytes.length < fixedBelow then
    let w := w.put 2 1
    (putTokens (codesOf fixedLiteralLengths)
      (codesOf fixedDistanceLengths) tokens w).finish
  else
    let (literals, distances) := countSymbols tokens
    let literalLengths :=
      dropZeros 257 (codeLengths maxCodeLength literals.toList)
    let distanceLengths :=
      dropZeros 1 (codeLengths maxCodeLength distances.toList)
    let w := putCodes literalLengths distanceLengths (w.put 2 2)
    (putTokens (codesOf literalLengths) (codesOf distanceLengths) tokens
      w).finish

def storedBlock (final : Bool) (bytes : Bytes) : Bytes :=
  let size := bytes.length
  let check := storedLimit - size
  [if final then 1 else 0, UInt8.ofNat size, UInt8.ofNat (size / 256),
    UInt8.ofNat check, UInt8.ofNat (check / 256)] ++ bytes

/-- The data in stored blocks, `fuel` of which are not the last one at most. -/
def storedBlocks : Nat → Bytes → Bytes
  | 0, bytes => storedBlock true bytes
  | fuel + 1, bytes =>
    if bytes.length ≤ storedLimit then storedBlock true bytes
    else storedBlock false (bytes.take storedLimit) ++
      storedBlocks fuel (bytes.drop storedLimit)

def store (bytes : Bytes) : Bytes :=
  storedBlocks (bytes.length / storedLimit) bytes

/-- Whether compressed data expands to the data and to nothing more. -/
def expandsTo (packed bytes : Bytes) : Bool :=
  match inflate packed with
  | .ok (data, []) => data == bytes
  | _ => false

def deflate (bytes : Bytes) : Bytes :=
  let packed := pack bytes
  let stored := store bytes
  if packed.length < stored.length && expandsTo packed bytes then packed
    else stored

end Telemetry.Deflate
