import Telemetry.Cipher.Rsa
import Telemetry.Digest.Sha256

/-!
# Padded RSA blocks

A message is hidden in a block by a random seed: the seed masks the message and
the masked message masks the seed.  A block that was not made this way is
refused without saying why.
-/

namespace Telemetry.Oaep

/-- The number of bytes of a digest, and of a seed. -/
def digestSize : Nat := 32

def overhead : Nat := 2 * digestSize + 2

/-- The bytes of a mask from a counter on, at least `count` digests of them. -/
def maskDigests (seed : Bytes) : Nat → Nat → Bytes
  | _, 0 => []
  | counter, count + 1 =>
    Sha256.hash (seed ++ Rsa.toBytes 4 counter) ++
      maskDigests seed (counter + 1) count

def mask (seed : Bytes) (size : Nat) : Bytes :=
  (maskDigests seed 0 (size / digestSize + 1)).take size

/-- Two byte strings combined bit by bit. -/
def xor (a b : Bytes) : Bytes :=
  List.zipWith (· ^^^ ·) a b

/-- A message as a block of `size` bytes, which must be long enough. -/
def pad (size : Nat) (seed message : Bytes) : Bytes :=
  let zeros := List.replicate (size - overhead - message.length) 0
  let data := Sha256.hash [] ++ zeros ++ 1 :: message
  let masked := xor data (mask seed data.length)
  0 :: xor seed (mask masked digestSize) ++ masked

/-- The message of a block of `size` bytes. -/
def unpad? (size : Nat) (block : Bytes) : Option Bytes :=
  if block.length ≠ size ∨ size < overhead then none
  else
    match block with
    | [] => none
    | first :: payload =>
      let masked := payload.drop digestSize
      let seed := xor (payload.take digestSize) (mask masked digestSize)
      let data := xor masked (mask seed masked.length)
      if first ≠ 0 ∨ data.take digestSize ≠ Sha256.hash [] then none
      else
        match (data.drop digestSize).dropWhile (· == 0) with
        | 1 :: message => some message
        | _ => none

end Telemetry.Oaep
