import AdmissionWatch.Digest.Sha256

/-!
# Keyed digests

A digest of a message that only those can make who know a key.
-/

namespace AdmissionWatch.Digest

/-- The number of bytes in a block. -/
def blockSize : Nat := 64

/-- A key as one block: a longer one is replaced by its digest, and what is missing is filled with
zeros. -/
def keyBlock (key : List UInt8) : List UInt8 :=
  let key := if blockSize < key.length then sha256 key else key
  key ++ List.replicate (blockSize - key.length) 0

/-- The HMAC of a message with SHA-256. -/
def hmacSha256 (key message : List UInt8) : List UInt8 :=
  let block := keyBlock key
  let inner := sha256 (block.map (· ^^^ 0x36) ++ message)
  sha256 (block.map (· ^^^ 0x5c) ++ inner)

end AdmissionWatch.Digest
