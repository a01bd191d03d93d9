import DataSquare.Bytes

/-!
# SHA-256

The digest behind every tree of the square. A message is padded to whole blocks of 64 bytes,
each block is expanded to 64 words, and 64 rounds fold them into a state of eight words. The
length of a digest is part of its type.
-/
namespace DataSquare

/-- A hash value of 32 bytes. -/
abbrev Digest := FixedBytes 32

namespace Sha256

/-- The eight chaining words. -/
structure State where
  /-- First word. -/
  a : UInt32
  /-- Second word. -/
  b : UInt32
  /-- Third word. -/
  c : UInt32
  /-- Fourth word. -/
  d : UInt32
  /-- Fifth word. -/
  e : UInt32
  /-- Sixth word. -/
  f : UInt32
  /-- Seventh word. -/
  g : UInt32
  /-- Eighth word. -/
  h : UInt32

/-- The fractional parts of the square roots of the first eight primes. -/
def State.initial : State :=
  ⟨0x6a09e667, 0xbb67ae85, 0x3c6ef372, 0xa54ff53a, 0x510e527f, 0x9b05688c, 0x1f83d9ab, 0x5be0cd19⟩

/-- The fractional parts of the cube roots of the first sixty-four primes. -/
def roundConstants : Array UInt32 := #[
  0x428a2f98, 0x71374491, 0xb5c0fbcf, 0xe9b5dba5, 0x3956c25b, 0x59f111f1, 0x923f82a4, 0xab1c5ed5,
  0xd807aa98, 0x12835b01, 0x243185be, 0x550c7dc3, 0x72be5d74, 0x80deb1fe, 0x9bdc06a7, 0xc19bf174,
  0xe49b69c1, 0xefbe4786, 0x0fc19dc6, 0x240ca1cc, 0x2de92c6f, 0x4a7484aa, 0x5cb0a9dc, 0x76f988da,
  0x983e5152, 0xa831c66d, 0xb00327c8, 0xbf597fc7, 0xc6e00bf3, 0xd5a79147, 0x06ca6351, 0x14292967,
  0x27b70a85, 0x2e1b2138, 0x4d2c6dfc, 0x53380d13, 0x650a7354, 0x766a0abb, 0x81c2c92e, 0x92722c85,
  0xa2bfe8a1, 0xa81a664b, 0xc24b8b70, 0xc76c51a3, 0xd192e819, 0xd6990624, 0xf40e3585, 0x106aa070,
  0x19a4c116, 0x1e376c08, 0x2748774c, 0x34b0bcb5, 0x391c0cb3, 0x4ed8aa4a, 0x5b9cca4f, 0x682e6ff3,
  0x748f82ee, 0x78a5636f, 0x84c87814, 0x8cc70208, 0x90befffa, 0xa4506ceb, 0xbef9a3f7, 0xc67178f2]

/-- A word rotated right. -/
@[inline] def rotateRight (word count : UInt32) : UInt32 :=
  (word >>> count) ||| (word <<< (32 - count))

/-- The first mixing function of the schedule. -/
@[inline] def smallSigma0 (word : UInt32) : UInt32 :=
  rotateRight word 7 ^^^ rotateRight word 18 ^^^ (word >>> 3)

/-- The second mixing function of the schedule. -/
@[inline] def smallSigma1 (word : UInt32) : UInt32 :=
  rotateRight word 17 ^^^ rotateRight word 19 ^^^ (word >>> 10)

/-- The first mixing function of a round. -/
@[inline] def bigSigma0 (word : UInt32) : UInt32 :=
  rotateRight word 2 ^^^ rotateRight word 13 ^^^ rotateRight word 22

/-- The second mixing function of a round. -/
@[inline] def bigSigma1 (word : UInt32) : UInt32 :=
  rotateRight word 6 ^^^ rotateRight word 11 ^^^ rotateRight word 25

/-- Big endian words read from the front, with the bytes after them. -/
def takeWords : Nat → Bytes → Array UInt32 → Array UInt32 × Bytes
  | count + 1, a :: b :: c :: d :: rest, words =>
    takeWords count rest (words.push
      ((a.toUInt32 <<< 24) ||| (b.toUInt32 <<< 16) ||| (c.toUInt32 <<< 8) ||| d.toUInt32))
  | _, rest, words => (words, rest)

/-- The schedule grown by `count` words, each from four earlier ones. -/
def extendSchedule : Nat → Array UInt32 → Array UInt32
  | 0, words => words
  | count + 1, words =>
    let next := words.size
    extendSchedule count (words.push
      (words.getD (next - 16) 0 + smallSigma0 (words.getD (next - 15) 0) +
        words.getD (next - 7) 0 + smallSigma1 (words.getD (next - 2) 0)))

/-- The last `count` of the sixty-four rounds. -/
def rounds (words : Array UInt32) :
    Nat → UInt32 → UInt32 → UInt32 → UInt32 → UInt32 → UInt32 → UInt32 → UInt32 → State
  | 0, a, b, c, d, e, f, g, h => ⟨a, b, c, d, e, f, g, h⟩
  | count + 1, a, b, c, d, e, f, g, h =>
    let position := 63 - count
    let first := h + bigSigma1 e + ((e &&& f) ^^^ ((~~~ e) &&& g)) +
      roundConstants.getD position 0 + words.getD position 0
    let second := bigSigma0 a + ((a &&& b) ^^^ (a &&& c) ^^^ (b &&& c))
    rounds words count (first + second) a b c (d + first) e f g

/-- The state after one block of sixteen words. -/
def compress (state : State) (block : Array UInt32) : State :=
  let mixed := rounds (extendSchedule 48 block) 64
    state.a state.b state.c state.d state.e state.f state.g state.h
  ⟨state.a + mixed.a, state.b + mixed.b, state.c + mixed.c, state.d + mixed.d,
    state.e + mixed.e, state.f + mixed.f, state.g + mixed.g, state.h + mixed.h⟩

/-- The state after `count` blocks read from the front. -/
def absorb : Nat → State → Bytes → State
  | 0, state, _ => state
  | count + 1, state, bytes =>
    let (block, rest) := takeWords 16 bytes (Array.mkEmpty 64)
    absorb count (compress state block) rest

/-- The bytes that complete a message of `length` bytes to whole blocks: a one bit, zeros and
the length in bits. -/
def padding (length : Nat) : Bytes :=
  0x80 :: List.replicate ((119 - length % 64) % 64) 0 ++ bigEndian 8 (8 * length)

/-- The four bytes of a word, most significant first. -/
def wordBytes (word : UInt32) : Bytes :=
  [(word >>> 24).toUInt8, (word >>> 16).toUInt8, (word >>> 8).toUInt8, word.toUInt8]

/-- The bytes of a state in order. -/
def State.bytes (state : State) : Bytes :=
  wordBytes state.a ++ wordBytes state.b ++ wordBytes state.c ++ wordBytes state.d ++
    wordBytes state.e ++ wordBytes state.f ++ wordBytes state.g ++ wordBytes state.h

/-- The SHA-256 digest of a byte string. -/
def digest (message : Bytes) : Digest :=
  let length := message.length
  let final := absorb (length / 64 + if length % 64 < 56 then 1 else 2) State.initial
    (message ++ padding length)
  ⟨final.bytes, rfl⟩

end Sha256

end DataSquare
