/-
**SHA-256, and digests under a key.**

Main definitions:

* `Sha256.State`: the eight words that a message is mixed into;
* `Sha256.pad`: a message filled up to whole blocks, its length in bits at the end;
* `Sha256.schedule`: the sixty-four words that a block is stretched to;
* `sha256`: the digest of a message;
* `hmacSha256`: the digest of a message under a key.

Main results:

* `exists_hmacSha256_eq`: a digest under a key is two digests, one within the other, each behind the
  key filled up to a block;
* `length_hmacSha256`: it has thirty-two bytes;
* `hmacSha256_jefe`: one of the digests of RFC 4231.
-/

import HubConfig.Text.Utf8

set_option autoImplicit false

namespace HubConfig

namespace Sha256

/-- The first thirty-two bits of the fractional parts of the cube roots of the first sixty-four
primes. -/
def roundConstants : List UInt32 :=
  [
    0x428a2f98, 0x71374491, 0xb5c0fbcf, 0xe9b5dba5, 0x3956c25b, 0x59f111f1, 0x923f82a4, 0xab1c5ed5,
    0xd807aa98, 0x12835b01, 0x243185be, 0x550c7dc3, 0x72be5d74, 0x80deb1fe, 0x9bdc06a7, 0xc19bf174,
    0xe49b69c1, 0xefbe4786, 0x0fc19dc6, 0x240ca1cc, 0x2de92c6f, 0x4a7484aa, 0x5cb0a9dc, 0x76f988da,
    0x983e5152, 0xa831c66d, 0xb00327c8, 0xbf597fc7, 0xc6e00bf3, 0xd5a79147, 0x06ca6351, 0x14292967,
    0x27b70a85, 0x2e1b2138, 0x4d2c6dfc, 0x53380d13, 0x650a7354, 0x766a0abb, 0x81c2c92e, 0x92722c85,
    0xa2bfe8a1, 0xa81a664b, 0xc24b8b70, 0xc76c51a3, 0xd192e819, 0xd6990624, 0xf40e3585, 0x106aa070,
    0x19a4c116, 0x1e376c08, 0x2748774c, 0x34b0bcb5, 0x391c0cb3, 0x4ed8aa4a, 0x5b9cca4f, 0x682e6ff3,
    0x748f82ee, 0x78a5636f, 0x84c87814, 0x8cc70208, 0x90befffa, 0xa4506ceb, 0xbef9a3f7, 0xc67178f2
  ]

/-! ### The state -/

/-- The eight words that a message is mixed into. -/
structure State where
  a : UInt32
  b : UInt32
  c : UInt32
  d : UInt32
  e : UInt32
  f : UInt32
  g : UInt32
  h : UInt32
  deriving DecidableEq, Repr

/-- The first thirty-two bits of the fractional parts of the square roots of the first eight
primes. -/
def State.initial : State :=
  ⟨0x6a09e667, 0xbb67ae85, 0x3c6ef372, 0xa54ff53a,
    0x510e527f, 0x9b05688c, 0x1f83d9ab, 0x5be0cd19⟩

/-- The sums of the words of two states. -/
def State.add (s t : State) : State :=
  ⟨s.a + t.a, s.b + t.b, s.c + t.c, s.d + t.d, s.e + t.e, s.f + t.f, s.g + t.g, s.h + t.h⟩

/-- A word with its bits turned right by `n` places. -/
def rotateRight (x : UInt32) (n : UInt32) : UInt32 := (x >>> n) ||| (x <<< (32 - n))

/-- One round, with the sum of its constant and its word. -/
def State.round (s : State) (k w : UInt32) : State :=
  let s1 := rotateRight s.e 6 ^^^ rotateRight s.e 11 ^^^ rotateRight s.e 25
  let choice := (s.e &&& s.f) ^^^ (~~~s.e &&& s.g)
  let t1 := s.h + s1 + choice + k + w
  let s0 := rotateRight s.a 2 ^^^ rotateRight s.a 13 ^^^ rotateRight s.a 22
  let majority := (s.a &&& s.b) ^^^ (s.a &&& s.c) ^^^ (s.b &&& s.c)
  ⟨t1 + (s0 + majority), s.a, s.b, s.c, s.d + t1, s.e, s.f, s.g⟩

/-! ### Blocks -/

/-- A number in `k` bytes, the most significant first. -/
def bigEndian (k : Nat) (n : Nat) : Bytes :=
  (List.range k).reverse.map fun i => UInt8.ofNat ((n >>> (8 * i)) % 256)

@[simp] theorem length_bigEndian (k n : Nat) : (bigEndian k n).length = k := by
  simp [bigEndian]

/-- A message with a set bit, zeros, and its length in bits at the end of the last block. -/
def pad (message : Bytes) : Bytes :=
  -- The set bit and the length take nine bytes, so the zeros stop at 55 of the last block.
  message ++ 0x80 :: List.replicate ((119 - message.length % 64) % 64) 0 ++
    bigEndian 8 (8 * message.length)

/-- The word that four bytes spell, the most significant first. -/
def word (a b c d : UInt8) : UInt32 :=
  a.toUInt32 <<< 24 ||| b.toUInt32 <<< 16 ||| c.toUInt32 <<< 8 ||| d.toUInt32

/-- The words of a list of bytes. -/
def words : Bytes → List UInt32
  | a :: b :: c :: d :: rest => word a b c d :: words rest
  | _ => []

/-- The word of the schedule that follows `recent`, the words before it with the latest first. -/
def nextWord (recent : List UInt32) : UInt32 :=
  let w2 := recent.getD 1 0
  let w15 := recent.getD 14 0
  let s0 := rotateRight w15 7 ^^^ rotateRight w15 18 ^^^ (w15 >>> 3)
  let s1 := rotateRight w2 17 ^^^ rotateRight w2 19 ^^^ (w2 >>> 10)
  recent.getD 15 0 + s0 + recent.getD 6 0 + s1

/-- The words before and the `n` words that follow them, with the latest first. -/
def extend : (n : Nat) → List UInt32 → List UInt32
  | 0, recent => recent
  | n + 1, recent => extend n (nextWord recent :: recent)

/-- The sixty-four words that the sixteen words of a block are stretched to. -/
def schedule (block : List UInt32) : List UInt32 := (extend 48 block.reverse).reverse

/-- A state after the sixteen words of a block. -/
def State.block (s : State) (block : List UInt32) : State :=
  s.add ((roundConstants.zip (schedule block)).foldl (fun s kw => s.round kw.1 kw.2) s)

/-- A state after the words of `n` blocks. -/
def State.blocks : (n : Nat) → List UInt32 → State → State
  | 0, _, s => s
  | n + 1, ws, s => blocks n (ws.drop 16) (s.block (ws.take 16))

/-- The bytes of a state. -/
def State.bytes (s : State) : Bytes :=
  [s.a, s.b, s.c, s.d, s.e, s.f, s.g, s.h].flatMap fun w => bigEndian 4 w.toNat

end Sha256

/-- **The digest of a message.** -/
def sha256 (message : Bytes) : Bytes :=
  let padded := Sha256.pad message
  (Sha256.State.blocks (padded.length / 64) (Sha256.words padded) .initial).bytes

theorem length_sha256 (message : Bytes) : (sha256 message).length = 32 := by
  simp [sha256, Sha256.State.bytes]

example : sha256 (utf8Bytes "abc".toList) =
    [0xba, 0x78, 0x16, 0xbf, 0x8f, 0x01, 0xcf, 0xea, 0x41, 0x41, 0x40, 0xde, 0x5d, 0xae, 0x22, 0x23,
      0xb0, 0x03, 0x61, 0xa3, 0x96, 0x17, 0x7a, 0x9c, 0xb4, 0x10, 0xff, 0x61, 0xf2, 0x00, 0x15,
      0xad] := by
  decide +kernel

/-! ### Digests under a key -/

/-- A key filled up with zeros to one block of sixty-four bytes, after a digest if it is longer. -/
def hmacBlock (key : Bytes) : Bytes :=
  let short := if key.length ≤ 64 then key else sha256 key
  short ++ List.replicate (64 - short.length) 0

theorem length_hmacBlock (key : Bytes) : (hmacBlock key).length = 64 := by
  rw [hmacBlock]
  split
  · simp; omega
  · simp [length_sha256]

/-- **The digest of a message under a key.** -/
def hmacSha256 (key message : Bytes) : Bytes :=
  let block := hmacBlock key
  sha256 (block.map (· ^^^ 0x5C) ++ sha256 (block.map (· ^^^ 0x36) ++ message))

theorem length_hmacSha256 (key message : Bytes) : (hmacSha256 key message).length = 32 :=
  length_sha256 _

/-- A digest under a key is two digests, one within the other, each behind the key filled up to a
block. -/
theorem exists_hmacSha256_eq (key message : Bytes) :
    ∃ block zeros : Bytes, block = (if key.length ≤ 64 then key else sha256 key) ++ zeros ∧
      block.length = 64 ∧ (∀ b ∈ zeros, b = 0) ∧
      hmacSha256 key message =
        sha256 (block.map (· ^^^ 0x5C) ++ sha256 (block.map (· ^^^ 0x36) ++ message)) :=
  ⟨hmacBlock key, List.replicate _ 0, rfl, length_hmacBlock key,
    fun _ hb => List.eq_of_mem_replicate hb, rfl⟩

/-- Test case 2 of RFC 4231. -/
theorem hmacSha256_jefe :
    hmacSha256 (utf8Bytes "Jefe".toList) (utf8Bytes "what do ya want for nothing?".toList) =
      [0x5b, 0xdc, 0xc1, 0x46, 0xbf, 0x60, 0x75, 0x4e, 0x6a, 0x04, 0x24, 0x26, 0x08, 0x95, 0x75,
        0xc7, 0x5a, 0x00, 0x3f, 0x08, 0x9d, 0x27, 0x39, 0x83, 0x9d, 0xec, 0x58, 0xb9, 0x64, 0xec,
        0x38, 0x43] := by
  decide +kernel

end HubConfig
