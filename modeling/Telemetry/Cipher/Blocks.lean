import Telemetry.Cipher.Oaep
import Telemetry.Cipher.Pem
import Telemetry.Halt
import Telemetry.Text.Quoted

/-!
# Encryption block by block

A payload is cut into blocks that the cipher can seal one at a time, and the
sealed blocks follow each other.  Opening walks over blocks of the sealed size
and fails as a whole when one of them does.
-/

namespace Telemetry

/-- Why something cannot be encrypted or decrypted. -/
inductive CipherError where
  /-- The file of the key cannot be read. -/
  | unreadable (reason : String)
  | invalidPem
  | unsupportedKey
  /-- A block of another kind than a public key. -/
  | unexpectedLabel (label : String)
  | wrongLength (length block : Nat)
  | decryption
  | internal
  /-- The size of the key stops the computation. -/
  | halt (reason : Halt)
  deriving DecidableEq, Repr

/-- The text of a failure; reasons that depend on the form of a
key are not given. -/
def CipherError.message : CipherError → String
  | .unreadable reason => s!"read key file: {reason}"
  | .invalidPem => "invalid PEM"
  | .unsupportedKey => "unsupported key"
  | .unexpectedLabel label =>
    s!"unsupported key: unexpected PEM label {Text.quote label}"
  | .wrongLength length block =>
    s!"ciphertext length {length} is not a multiple of block size {block}"
  | .decryption => "decryption error"
  | .internal => "internal error"
  | .halt reason => reason.message

/-- Cuts a list into parts of `n` elements, the last one possibly shorter; `n`
counts as one when it is zero. -/
def chunks {α : Type} (n : Nat) : List α → List (List α)
  | [] => []
  | x :: rest => (x :: rest.take (n - 1)) :: chunks n (rest.drop (n - 1))
termination_by xs => xs.length
decreasing_by simp only [List.length_drop, List.length_cons]; omega

/-- A cipher that seals blocks: the size of a sealed block, and sealing a
message under a seed. -/
structure BlockSealer where
  size : Nat
  sealBlock : Bytes → Bytes → Bytes

/-- A cipher that opens blocks: the size of a sealed block, and opening one. -/
structure BlockOpener where
  size : Nat
  openBlock : Bytes → Except CipherError Bytes

namespace BlockSealer

/-- The greatest number of bytes that one block holds, zero where none does. -/
def blockSize (c : BlockSealer) : Nat := c.size - Oaep.overhead

/-- The block size as it is computed; there is none where the overhead is
the greater number. -/
def checkedBlockSize (c : BlockSealer) : Except Halt Nat :=
  Halt.sub c.size Oaep.overhead

def sealAll (c : BlockSealer) (seeds : Nat → Bytes) : Nat → List Bytes → Bytes
  | _, [] => []
  | i, block :: rest =>
    c.sealBlock (seeds i) block ++ sealAll c seeds (i + 1) rest

/-- Encrypts a payload; `seeds` are the random bytes of its blocks.  The length
of the result is computed first. -/
def encrypt (c : BlockSealer) (seeds : Nat → Bytes) (data : Bytes) :
    Except CipherError Bytes := do
  let block ← c.checkedBlockSize.mapError CipherError.halt
  let _ ← (Halt.divCeil data.length block).mapError CipherError.halt
  return c.sealAll seeds 0 (chunks block data)

end BlockSealer

namespace BlockOpener

/-- Opens blocks and joins what they hold. -/
def openAll (c : BlockOpener) : List Bytes → Except CipherError Bytes
  | [] => .ok []
  | block :: rest => do
    let front ← c.openBlock block
    let back ← openAll c rest
    return front ++ back

def decrypt (c : BlockOpener) (data : Bytes) : Except CipherError Bytes :=
  if data.length % c.size ≠ 0 then .error (.wrongLength data.length c.size)
  else c.openAll (chunks c.size data)

end BlockOpener

namespace Rsa.PublicKey

/-- The public key of a file: the first block, a certificate or a
key of either form. -/
def ofPem (pem : Bytes) : Except CipherError PublicKey :=
  match Pem.readFirst? pem with
  | none => .error .invalidPem
  | some block =>
    let orUnsupported (key : Option PublicKey) : Except CipherError PublicKey :=
      match key with
      | some key => .ok key
      | none => .error .unsupportedKey
    if block.label = "CERTIFICATE" then
      match certifiedKey? block.contents with
      | none => .error .invalidPem
      | some key => orUnsupported (ofNamed? key)
    else if block.label = "PUBLIC KEY" then
      orUnsupported (ofNamed? block.contents)
    else if block.label = "RSA PUBLIC KEY" then
      orUnsupported (ofBare? block.contents)
    else .error (.unexpectedLabel block.label)

/-- The cipher that seals blocks for the holder of the private key. -/
def sealer (key : PublicKey) : BlockSealer :=
  ⟨key.size, fun seed message =>
    toBytes key.size
      (powMod (Der.natural (Oaep.pad key.size seed message)) key.exponent
        key.modulus)⟩

end Rsa.PublicKey

namespace Rsa.PrivateKey

/-- The private key of a file, bare or with the name of its algorithm. -/
def ofPem (pem : Bytes) : Except CipherError PrivateKey :=
  let key := do
    let block ← Pem.readStrict? pem
    if block.label = "RSA PRIVATE KEY" then ofBare? block.contents
    else if block.label = "PRIVATE KEY" then ofNamed? block.contents
    else none
  match key with
  | some key => .ok key
  | none => .error .unsupportedKey

/-- Opens a block; the result must lead back to the block. -/
def openBlock (key : PrivateKey) (block : Bytes) : Except CipherError Bytes :=
  let c := Der.natural block
  if key.modulus ≤ c then .error .decryption
  else
    let m := powMod c key.privateExponent key.modulus
    if powMod m key.publicExponent key.modulus ≠ c then .error .internal
    else
      match Oaep.unpad? key.size (toBytes key.size m) with
      | some message => .ok message
      | none => .error .decryption

def opener (key : PrivateKey) : BlockOpener :=
  ⟨key.size, key.openBlock⟩

/-- How a key is shown in a log: without its secrets. -/
def describe (key : PrivateKey) : String :=
  s!"Decrypter \x7b bits: {key.size * 8}, .. \x7d"

end Rsa.PrivateKey

end Telemetry
