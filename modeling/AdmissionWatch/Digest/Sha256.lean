/-!
# SHA-256

The digest of bytes in 32 bytes. The bytes are padded to whole blocks of sixteen words; each block
is mixed into a state of eight words in sixty-four rounds.
-/

namespace AdmissionWatch.Digest

namespace Sha256

/-- The first 32 bits of the fractional parts of the cube roots of the first sixty-four primes, one
for each round. -/
def roundConstants : List UInt32 :=
  [0x428a2f98, 0x71374491, 0xb5c0fbcf, 0xe9b5dba5, 0x3956c25b, 0x59f111f1, 0x923f82a4, 0xab1c5ed5,
   0xd807aa98, 0x12835b01, 0x243185be, 0x550c7dc3, 0x72be5d74, 0x80deb1fe, 0x9bdc06a7, 0xc19bf174,
   0xe49b69c1, 0xefbe4786, 0x0fc19dc6, 0x240ca1cc, 0x2de92c6f, 0x4a7484aa, 0x5cb0a9dc, 0x76f988da,
   0x983e5152, 0xa831c66d, 0xb00327c8, 0xbf597fc7, 0xc6e00bf3, 0xd5a79147, 0x06ca6351, 0x14292967,
   0x27b70a85, 0x2e1b2138, 0x4d2c6dfc, 0x53380d13, 0x650a7354, 0x766a0abb, 0x81c2c92e, 0x92722c85,
   0xa2bfe8a1, 0xa81a664b, 0xc24b8b70, 0xc76c51a3, 0xd192e819, 0xd6990624, 0xf40e3585, 0x106aa070,
   0x19a4c116, 0x1e376c08, 0x2748774c, 0x34b0bcb5, 0x391c0cb3, 0x4ed8aa4a, 0x5b9cca4f, 0x682e6ff3,
   0x748f82ee, 0x78a5636f, 0x84c87814, 0x8cc70208, 0x90befffa, 0xa4506ceb, 0xbef9a3f7, 0xc67178f2]

/-- The eight words that are carried from block to block. -/
structure State where
  a : UInt32
  b : UInt32
  c : UInt32
  d : UInt32
  e : UInt32
  f : UInt32
  g : UInt32
  h : UInt32
  deriving DecidableEq, Repr

/-- The first 32 bits of the fractional parts of the square roots of the first eight primes. -/
def initial : State :=
  ⟨0x6a09e667, 0xbb67ae85, 0x3c6ef372, 0xa54ff53a, 0x510e527f, 0x9b05688c, 0x1f83d9ab, 0x5be0cd19⟩

/-- The bits of a word moved to the right, those that leave it coming in on the left. -/
def rotate (n : UInt32) (x : UInt32) : UInt32 :=
  (x >>> n) ||| (x <<< (32 - n))

/-- What a word sixteen places back adds to the schedule. -/
def spreadEarly (x : UInt32) : UInt32 := rotate 7 x ^^^ rotate 18 x ^^^ (x >>> 3)

/-- What a word two places back adds to the schedule. -/
def spreadLate (x : UInt32) : UInt32 := rotate 17 x ^^^ rotate 19 x ^^^ (x >>> 10)

/-- The word of the schedule that follows sixteen words. -/
def nextWord (window : List UInt32) : UInt32 :=
  spreadLate (window.getD 14 0) + window.getD 9 0 + spreadEarly (window.getD 1 0) + window.getD 0 0

/-- Mixes a word and a constant into the state. -/
def mix (s : State) (word constant : UInt32) : State :=
  let spreadE := rotate 6 s.e ^^^ rotate 11 s.e ^^^ rotate 25 s.e
  let choice := (s.e &&& s.f) ^^^ (~~~s.e &&& s.g)
  let t := s.h + spreadE + choice + constant + word
  let spreadA := rotate 2 s.a ^^^ rotate 13 s.a ^^^ rotate 22 s.a
  let majority := (s.a &&& s.b) ^^^ (s.a &&& s.c) ^^^ (s.b &&& s.c)
  ⟨t + spreadA + majority, s.a, s.b, s.c, s.d + t, s.e, s.f, s.g⟩

/-- One round: the first word of the window is mixed into the state and the window moves on by one
word. -/
def round (current : State × List UInt32) (constant : UInt32) : State × List UInt32 :=
  let (s, window) := current
  (mix s (window.getD 0 0) constant, window.drop 1 ++ [nextWord window])

/-- The state after a block. -/
def addBlock (s : State) (block : List UInt32) : State :=
  let r := (roundConstants.foldl round (s, block)).1
  ⟨s.a + r.a, s.b + r.b, s.c + r.c, s.d + r.d, s.e + r.e, s.f + r.f, s.g + r.g, s.h + r.h⟩

/-- The word that four bytes make, the first the most significant. -/
def word (a b c d : UInt8) : UInt32 :=
  (a.toUInt32 <<< 24) ||| (b.toUInt32 <<< 16) ||| (c.toUInt32 <<< 8) ||| d.toUInt32

/-- The words that bytes make; up to three bytes at the end are left out. -/
def words : List UInt8 → List UInt32
  | a :: b :: c :: d :: rest => word a b c d :: words rest
  | _ => []

/-- So many blocks of sixteen words. -/
def blocks : Nat → List UInt32 → List (List UInt32)
  | 0, _ => []
  | n + 1, ws => ws.take 16 :: blocks n (ws.drop 16)

/-- The bytes of a number, so many of them, the first the most significant. -/
def bytesOf : (count : Nat) → Nat → List UInt8
  | 0, _ => []
  | count + 1, n => bytesOf count (n / 256) ++ [UInt8.ofNat n]

/-- Bytes followed by a one bit, zeros and their number of bits, which makes whole blocks of 64
bytes. -/
def pad (message : List UInt8) : List UInt8 :=
  message ++ 0x80 :: List.replicate ((119 - message.length % 64) % 64) 0 ++ bytesOf 8 (message.length * 8)

/-- The bytes of the words of a state. -/
def State.bytes (s : State) : List UInt8 :=
  [s.a, s.b, s.c, s.d, s.e, s.f, s.g, s.h].flatMap fun w => bytesOf 4 w.toNat

end Sha256

open Sha256 in
/-- The SHA-256 digest of bytes. -/
def sha256 (message : List UInt8) : List UInt8 :=
  let ws := words (pad message)
  ((blocks (ws.length / 16) ws).foldl addBlock initial).bytes

end AdmissionWatch.Digest
