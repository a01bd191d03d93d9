import DataSquare.Hash.Sha256

/-!
# BLAKE2b

The digest that names a transaction: BLAKE2b without key and with an output of 32 bytes. The
working matrix of sixteen words is kept as four rows, so that the column step is one operation
on rows and the diagonal step is the same operation on rotated rows.
-/
namespace DataSquare.Blake2b

/-- Four words of the working matrix. -/
structure Row where
  /-- First word. -/
  a : UInt64
  /-- Second word. -/
  b : UInt64
  /-- Third word. -/
  c : UInt64
  /-- Fourth word. -/
  d : UInt64

namespace Row

/-- Sums of the words of two rows. -/
def add (left right : Row) : Row :=
  ⟨left.a + right.a, left.b + right.b, left.c + right.c, left.d + right.d⟩

/-- Exclusive or of two rows. -/
def xor (left right : Row) : Row :=
  ⟨left.a ^^^ right.a, left.b ^^^ right.b, left.c ^^^ right.c, left.d ^^^ right.d⟩

/-- A word rotated right. -/
@[inline] def rotateWord (word count : UInt64) : UInt64 :=
  (word >>> count) ||| (word <<< (64 - count))

/-- Exclusive or of two rows with every word rotated right. -/
def xorRotate (left right : Row) (count : UInt64) : Row :=
  ⟨rotateWord (left.a ^^^ right.a) count, rotateWord (left.b ^^^ right.b) count,
    rotateWord (left.c ^^^ right.c) count, rotateWord (left.d ^^^ right.d) count⟩

/-- The row moved left by one word. -/
def shiftOne (row : Row) : Row := ⟨row.b, row.c, row.d, row.a⟩

/-- The row moved left by two words. -/
def shiftTwo (row : Row) : Row := ⟨row.c, row.d, row.a, row.b⟩

/-- The row moved left by three words. -/
def shiftThree (row : Row) : Row := ⟨row.d, row.a, row.b, row.c⟩

end Row

/-- The working matrix. -/
structure Matrix where
  /-- First row. -/
  top : Row
  /-- Second row. -/
  upper : Row
  /-- Third row. -/
  lower : Row
  /-- Fourth row. -/
  bottom : Row

/-- The mixing function on all four columns at once. -/
def Matrix.mixColumns (matrix : Matrix) (first second : Row) : Matrix :=
  let top := (matrix.top.add matrix.upper).add first
  let bottom := matrix.bottom.xorRotate top 32
  let lower := matrix.lower.add bottom
  let upper := matrix.upper.xorRotate lower 24
  let top := (top.add upper).add second
  let bottom := bottom.xorRotate top 16
  let lower := lower.add bottom
  let upper := upper.xorRotate lower 63
  ⟨top, upper, lower, bottom⟩

/-- The order in which the message words enter each of the ten distinct rounds. -/
def schedule : List (Array Nat) := [
  #[0, 1, 2, 3, 4, 5, 6, 7, 8, 9, 10, 11, 12, 13, 14, 15],
  #[14, 10, 4, 8, 9, 15, 13, 6, 1, 12, 0, 2, 11, 7, 5, 3],
  #[11, 8, 12, 0, 5, 2, 15, 13, 10, 14, 3, 6, 7, 1, 9, 4],
  #[7, 9, 3, 1, 13, 12, 11, 14, 2, 6, 5, 10, 4, 0, 15, 8],
  #[9, 0, 5, 7, 2, 4, 10, 15, 14, 1, 11, 12, 6, 8, 3, 13],
  #[2, 12, 6, 10, 0, 11, 8, 3, 4, 13, 7, 5, 15, 14, 1, 9],
  #[12, 5, 1, 15, 14, 13, 4, 10, 0, 7, 6, 3, 9, 2, 8, 11],
  #[13, 11, 7, 14, 12, 1, 3, 9, 5, 0, 15, 4, 8, 6, 2, 10],
  #[6, 15, 14, 9, 11, 3, 0, 8, 12, 2, 13, 7, 1, 4, 10, 5],
  #[10, 2, 8, 4, 7, 6, 1, 5, 15, 11, 9, 14, 3, 12, 13, 0]]

/-- Four message words in the order of four schedule positions. -/
def selectWords (words : Array UInt64) (order : Array Nat) (a b c d : Nat) : Row :=
  ⟨words.getD (order.getD a 0) 0, words.getD (order.getD b 0) 0,
    words.getD (order.getD c 0) 0, words.getD (order.getD d 0) 0⟩

/-- One round: the columns, then the diagonals. -/
def Matrix.round (words : Array UInt64) (matrix : Matrix) (order : Array Nat) : Matrix :=
  let columns :=
    matrix.mixColumns (selectWords words order 0 2 4 6) (selectWords words order 1 3 5 7)
  let turned : Matrix :=
    ⟨columns.top, columns.upper.shiftOne, columns.lower.shiftTwo, columns.bottom.shiftThree⟩
  let diagonals := turned.mixColumns
    (selectWords words order 8 10 12 14) (selectWords words order 9 11 13 15)
  ⟨diagonals.top, diagonals.upper.shiftThree, diagonals.lower.shiftTwo, diagonals.bottom.shiftOne⟩

/-- The first half of the initialization words. -/
def initialTop : Row :=
  ⟨0x6a09e667f3bcc908, 0xbb67ae8584caa73b, 0x3c6ef372fe94f82b, 0xa54ff53a5f1d36f1⟩

/-- The second half of the initialization words. -/
def initialUpper : Row :=
  ⟨0x510e527fade682d1, 0x9b05688c2b3e6c1f, 0x1f83d9abfb41bd6b, 0x5be0cd19137e2179⟩

/-- The chaining value of an unkeyed digest of 32 bytes before any block. -/
def initialState : Row × Row :=
  ({ initialTop with a := initialTop.a ^^^ 0x01010020 }, initialUpper)

/-- The chaining value after one block, with the number of bytes read so far and whether the
block is the last. -/
def compress (state : Row × Row) (words : Array UInt64) (counter : UInt64) (last : Bool) :
    Row × Row :=
  let marked : Row := if last then ⟨counter, 0, 0xffffffffffffffff, 0⟩ else ⟨counter, 0, 0, 0⟩
  let start : Matrix := ⟨state.1, state.2, initialTop, initialUpper.xor marked⟩
  let final := (schedule ++ schedule.take 2).foldl (Matrix.round words) start
  ((state.1.xor final.top).xor final.lower, (state.2.xor final.upper).xor final.bottom)

/-- Little endian words read from the front. A byte string that runs out is continued with
zeros. -/
def takeWords : Nat → Bytes → Array UInt64 → Array UInt64
  | 0, _, words => words
  | count + 1, bytes, words =>
    takeWords count (bytes.drop 8) (words.push (UInt64.ofNat (ofLittleEndian (bytes.take 8))))

/-- The chaining value after all `count + 1` blocks of a message, the last of which may be
short. -/
def absorb : Nat → Row × Row → UInt64 → Bytes → Row × Row
  | 0, state, counter, bytes =>
    compress state (takeWords 16 bytes (Array.mkEmpty 16))
      (counter + UInt64.ofNat bytes.length) true
  | count + 1, state, counter, bytes =>
    absorb count (compress state (takeWords 16 (bytes.take 128) (Array.mkEmpty 16))
      (counter + 128) false) (counter + 128) (bytes.drop 128)

/-- The BLAKE2b digest of 32 bytes of a byte string. -/
def digest (message : Bytes) : Digest :=
  let final := (absorb ((message.length - 1) / 128) initialState 0 message).1
  ⟨littleEndian 8 final.a.toNat ++ littleEndian 8 final.b.toNat ++
    littleEndian 8 final.c.toNat ++ littleEndian 8 final.d.toNat, by simp⟩

end DataSquare.Blake2b
