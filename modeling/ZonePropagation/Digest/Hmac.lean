import ZonePropagation.Digest.Sha2
/-!
Keyed message authentication (HMAC) over a digest.
-/

namespace ZonePropagation.Digest

structure HashFunction where
  block : Nat
  digest : List UInt8 → List UInt8

/-- A key at block length: a longer one is digested first, a shorter one filled with zeros. -/
def blockKey (hash : HashFunction) (key : List UInt8) : List UInt8 :=
  let short := if key.length > hash.block then hash.digest key else key
  short ++ List.replicate (hash.block - short.length) 0

def hmac (hash : HashFunction) (key message : List UInt8) : List UInt8 :=
  let padded := blockKey hash key
  let inner := hash.digest (padded.map (· ^^^ 0x36) ++ message)
  hash.digest (padded.map (· ^^^ 0x5C) ++ inner)

end ZonePropagation.Digest
