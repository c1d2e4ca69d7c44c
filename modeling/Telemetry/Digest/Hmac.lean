import Telemetry.Digest.Sha256

/-!
# HMAC-SHA-256

The keyed digest of a message: the key fills one block, and the message is
hashed under it twice with two different paddings.
-/

namespace Telemetry.Hmac

/-- The key as one block: a longer key is hashed first, and
zeros fill the rest. -/
def keyBlock (key : Bytes) : Bytes :=
  let key := if Sha256.blockSize < key.length then Sha256.hash key else key
  key ++ List.replicate (Sha256.blockSize - key.length) 0

def sha256 (key message : Bytes) : Bytes :=
  let block := keyBlock key
  let inner := Sha256.hash (block.map (· ^^^ 0x36) ++ message)
  Sha256.hash (block.map (· ^^^ 0x5C) ++ inner)

/-- The second test case of RFC 4231. -/
example :
    Hex.encode (sha256 (Utf8.encode "Jefe")
      (Utf8.encode "what do ya want for nothing?")) =
      "5bdcc146bf60754e6a042426089575c75a003f089d2739839dec58b964ec3843" := by
  decide +kernel

end Telemetry.Hmac
