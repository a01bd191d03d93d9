import DataSquare.SquareRoot

/-!
# Share counts

How many shares a sequence of bytes takes. The first share of a sequence has a longer header
than the shares after it, and compact shares have a longer header than sparse ones.
-/
namespace DataSquare

/-- Bytes in a share. -/
abbrev shareSize : Nat := 512

/-- Bytes of content in the first share of a compact sequence. -/
abbrev firstCompactContent : Nat := 474

/-- Bytes of content in every later share of a compact sequence. -/
abbrev laterCompactContent : Nat := 478

/-- Bytes of content in the first share of a sparse sequence. -/
abbrev firstSparseContent : Nat := 478

/-- Bytes of content in every later share of a sparse sequence. -/
abbrev laterSparseContent : Nat := 482

/-- A quotient rounded up. -/
def ceilDiv (dividend divisor : Nat) : Nat :=
  if dividend % divisor = 0 then dividend / divisor else dividend / divisor + 1

/-- Shares that hold `length` bytes when the first holds `first` and each later one `later`. -/
def sharesNeeded (first later length : Nat) : Nat :=
  if length = 0 then 0
  else if length ≤ first then 1
  else 1 + ceilDiv (length - first) later

/-- Shares of a compact sequence of `length` bytes. -/
def compactSharesNeeded (length : Nat) : Nat :=
  sharesNeeded firstCompactContent laterCompactContent length

/-- Shares of a sparse sequence of `length` bytes. -/
def sparseSharesNeeded (length : Nat) : Nat :=
  sharesNeeded firstSparseContent laterSparseContent length

/-- The width of the smallest square that `count` shares fit in on their own. -/
def blobMinSquareSize (count : Nat) : Nat := ceilPowerOfTwo (ceilSqrt count)

/-- The width of the smallest square that `count` shares fit in on their own, if it is found within
64 bits. -/
def blobMinSquareSize? (count : Nat) : Option Nat := (ceilSqrt? count).bind ceilPowerOfTwo?

/-- A sequence with content takes a share. -/
theorem sparseSharesNeeded_pos {length : Nat} (h : length ≠ 0) : 0 < sparseSharesNeeded length := by
  unfold sparseSharesNeeded sharesNeeded
  split
  · contradiction
  · split <;> omega

/-- A sparse sequence does not take more shares than bytes. -/
theorem sparseSharesNeeded_le (length : Nat) : sparseSharesNeeded length ≤ length := by
  unfold sparseSharesNeeded sharesNeeded ceilDiv firstSparseContent laterSparseContent
  split
  · omega
  · split
    · omega
    · split <;> omega

end DataSquare
