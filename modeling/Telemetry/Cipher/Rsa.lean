import Telemetry.Cipher.Der

/-!
# RSA keys

The keys, the operation on numbers, and the structures in which keys are
written: a bare key, a key with the name of its algorithm, and a certificate.
-/

namespace Telemetry.Rsa

/-- A public key: modulus and exponent. -/
structure PublicKey where
  modulus : Nat
  exponent : Nat
  deriving DecidableEq, Repr

/-- A private key: modulus, public and private exponent. -/
structure PrivateKey where
  modulus : Nat
  publicExponent : Nat
  privateExponent : Nat
  deriving DecidableEq, Repr

def bitLength (n : Nat) : Nat :=
  if n = 0 then 0 else n.log2 + 1

def byteLength (n : Nat) : Nat :=
  (bitLength n + 7) / 8

def PublicKey.size (key : PublicKey) : Nat := byteLength key.modulus

def PrivateKey.size (key : PrivateKey) : Nat := byteLength key.modulus

def powMod (base exponent modulus : Nat) : Nat :=
  if exponent = 0 then 1 % modulus
  else
    let half := powMod base (exponent / 2) modulus
    let square := half * half % modulus
    if exponent % 2 = 1 then square * base % modulus else square
termination_by exponent

/-- The bytes of a number, the highest first, `size` of them. -/
def toBytes : Nat → Nat → Bytes
  | 0, _ => []
  | size + 1, n => toBytes size (n / 256) ++ [UInt8.ofNat n]

/-- The greatest number of bits of a modulus. -/
def maxModulusBits : Nat := 4096

def exponentBound : Nat := 0x200000000

def PublicKey.isValid (key : PublicKey) : Bool :=
  bitLength key.modulus ≤ maxModulusBits && key.exponent < key.modulus
    && key.modulus % 2 == 1 && key.exponent % 2 == 1 && 2 ≤ key.exponent
    && key.exponent < exponentBound

def algorithmIdentifier : Bytes :=
  [0x2A, 0x86, 0x48, 0x86, 0xF7, 0x0D, 0x01, 0x01, 0x01]

/-- Whether the contents of a sequence name the algorithm,
without parameters. -/
def namesAlgorithm (contents : Bytes) : Bool :=
  match Der.tagged? Der.identifierTag contents with
  | some (identifier, rest) =>
    identifier == algorithmIdentifier && Der.only? Der.nullTag rest == some []
  | none => false

def PublicKey.ofBare? (bytes : Bytes) : Option PublicKey := do
  let contents ← Der.only? Der.sequenceTag bytes
  let (modulus, rest) ← Der.readUnsigned? contents
  let (exponent, rest) ← Der.readUnsigned? rest
  let key : PublicKey := ⟨modulus, exponent⟩
  if rest = [] ∧ key.isValid then some key else none

def PublicKey.ofNamed? (bytes : Bytes) : Option PublicKey := do
  let contents ← Der.only? Der.sequenceTag bytes
  let (algorithm, rest) ← Der.tagged? Der.sequenceTag contents
  let bits ← Der.only? Der.bitStringTag rest
  let key ← Der.wholeBits? bits
  if namesAlgorithm algorithm then PublicKey.ofBare? key else none

def PrivateKey.ofBare? (bytes : Bytes) : Option PrivateKey := do
  let contents ← Der.only? Der.sequenceTag bytes
  let (numbers, rest) ← Der.readUnsignedList? 9 contents
  match numbers with
  | 0 :: modulus :: publicExponent :: privateExponent :: _ =>
    if rest = [] then some ⟨modulus, publicExponent, privateExponent⟩ else none
  | _ => none

/-- Whether what follows a private key are attributes, and a public key where
the version allows one. -/
def closesPrivateKey (version : Nat) (rest : Bytes) : Bool :=
  let afterAttributes := match Der.tagged? 0xA0 rest with
    | some (_, rest) => rest
    | none => rest
  let afterKey := match Der.tagged? 0x81 afterAttributes with
    | some (_, rest) => if version = 1 then rest else afterAttributes
    | none => afterAttributes
  afterKey == []

def PrivateKey.ofNamed? (bytes : Bytes) : Option PrivateKey := do
  let contents ← Der.only? Der.sequenceTag bytes
  let (version, rest) ← Der.readUnsigned? contents
  let (algorithm, rest) ← Der.tagged? Der.sequenceTag rest
  let (key, rest) ← Der.tagged? Der.octetStringTag rest
  if version ≤ 1 ∧ closesPrivateKey version rest ∧ namesAlgorithm algorithm then
    PrivateKey.ofBare? key
  else none

/-- The public key element of a certificate, with its tag and length. -/
def certifiedKey? (bytes : Bytes) : Option Bytes := do
  let (certificate, _) ← Der.tagged? Der.sequenceTag bytes
  let (body, rest) ← Der.tagged? Der.sequenceTag certificate
  let (_, rest) ← Der.tagged? Der.sequenceTag rest
  let _ ← Der.only? Der.bitStringTag rest
  let body := match Der.tagged? 0xA0 body with
    | some (_, rest) => rest
    | none => body
  let (_, body) ← Der.tagged? Der.integerTag body
  let (_, body) ← Der.tagged? Der.sequenceTag body
  let (_, body) ← Der.tagged? Der.sequenceTag body
  let (_, body) ← Der.tagged? Der.sequenceTag body
  let (_, body) ← Der.tagged? Der.sequenceTag body
  let (_, rest) ← Der.tagged? Der.sequenceTag body
  some (body.take (body.length - rest.length))

end Telemetry.Rsa
