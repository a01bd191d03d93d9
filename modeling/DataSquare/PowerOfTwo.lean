/-!
# Powers of two

Rounding to powers of two and the split point of a tree. Counts are machine numbers of 64 bits: what
does not fit them has no value, and so has what is computed from it. Main statements: the rounded
values are powers of two on the right side of their argument, a value has a rounded one exactly up
to 2⁶³, and a tree of at least two leaves splits into two smaller ones that are not empty.
-/
namespace DataSquare

/-- A number as a machine number, if it fits 64 bits. -/
def word? (number : Nat) : Option Nat := if number < UInt64.size then some number else none

/-- Whether a number is a power of two. -/
def isPowerOfTwo (value : Nat) : Bool := value != 0 && 1 <<< value.log2 == value

/-- The least power of two that is not below `value`. -/
def ceilPowerOfTwo (value : Nat) : Nat :=
  if value ≤ 1 then 1 else 1 <<< ((value - 1).log2 + 1)

/-- The least power of two that is not below `value`, if it fits 64 bits. -/
def ceilPowerOfTwo? (value : Nat) : Option Nat := word? (ceilPowerOfTwo value)

/-- The largest power of two that is not above `value`, and zero for zero. -/
def floorPowerOfTwo (value : Nat) : Nat :=
  if value = 0 then 0 else 1 <<< value.log2

/-- The number of leaves on the left of a tree of `count` leaves: the largest power of two
below `count`. -/
def splitPoint (count : Nat) : Nat := ceilPowerOfTwo count / 2

/-- A machine number is the number itself, below 2⁶⁴. -/
@[simp] theorem word?_eq_some_iff {number word : Nat} :
    word? number = some word ↔ number < UInt64.size ∧ word = number := by
  by_cases fits : number < UInt64.size
  · rw [word?, if_pos fits, Option.some.injEq]
    exact ⟨fun same => ⟨fits, same.symm⟩, fun found => found.2.symm⟩
  · rw [word?, if_neg fits]
    exact ⟨fun found => (nomatch found), fun found => absurd found.1 fits⟩

/-- No machine number is exactly what needs more than 64 bits. -/
@[simp] theorem word?_eq_none_iff {number : Nat} : word? number = none ↔ UInt64.size ≤ number := by
  by_cases fits : number < UInt64.size
  · rw [word?, if_pos fits]
    exact ⟨fun absent => (nomatch absent), fun above => absurd fits (Nat.not_lt.mpr above)⟩
  · rw [word?, if_neg fits]
    exact ⟨fun _ => Nat.not_lt.mp fits, fun _ => rfl⟩

/-- A power of two is recognized. -/
theorem isPowerOfTwo_one_shiftLeft (exponent : Nat) :
    isPowerOfTwo (1 <<< exponent) = true := by
  simp [isPowerOfTwo, Nat.one_shiftLeft, Nat.log2_two_pow]

/-- What is recognized is a power of two. -/
theorem isPowerOfTwo_iff (value : Nat) :
    isPowerOfTwo value = true ↔ ∃ exponent, value = 1 <<< exponent := by
  constructor
  · intro h
    simp only [isPowerOfTwo, Bool.and_eq_true, beq_iff_eq] at h
    exact ⟨value.log2, h.2.symm⟩
  · rintro ⟨exponent, rfl⟩
    exact isPowerOfTwo_one_shiftLeft exponent

/-- Rounding up never goes below. -/
theorem le_ceilPowerOfTwo (value : Nat) : value ≤ ceilPowerOfTwo value := by
  unfold ceilPowerOfTwo
  split
  · assumption
  · have := Nat.lt_log2_self (n := value - 1)
    rw [Nat.one_shiftLeft]
    omega

/-- Rounding up gives a power of two. -/
theorem ceilPowerOfTwo_eq_one_shiftLeft (value : Nat) :
    ∃ exponent, ceilPowerOfTwo value = 1 <<< exponent := by
  unfold ceilPowerOfTwo
  split
  · exact ⟨0, rfl⟩
  · exact ⟨_, rfl⟩

/-- Rounding up stays below twice the value. -/
theorem ceilPowerOfTwo_lt {value : Nat} (h : 0 < value) : ceilPowerOfTwo value < 2 * value := by
  unfold ceilPowerOfTwo
  split
  · omega
  · have := Nat.log2_self_le (n := value - 1) (by omega)
    rw [Nat.one_shiftLeft, Nat.pow_succ]
    omega

/-- Rounding down keeps a positive number positive. -/
theorem floorPowerOfTwo_pos {value : Nat} (h : 0 < value) : 0 < floorPowerOfTwo value := by
  unfold floorPowerOfTwo
  split
  · omega
  · rw [Nat.one_shiftLeft]
    exact Nat.two_pow_pos _

/-- Rounding down never goes above. -/
theorem floorPowerOfTwo_le (value : Nat) : floorPowerOfTwo value ≤ value := by
  unfold floorPowerOfTwo
  split
  · omega
  · rw [Nat.one_shiftLeft]
    exact Nat.log2_self_le (by omega)

/-- A tree of at least two leaves has a leaf on its left. -/
theorem splitPoint_pos {count : Nat} (h : 1 < count) : 0 < splitPoint count := by
  have := le_ceilPowerOfTwo count
  unfold splitPoint
  omega

/-- A tree of at least two leaves has a leaf on its right. -/
theorem splitPoint_lt {count : Nat} (h : 1 < count) : splitPoint count < count := by
  have : ceilPowerOfTwo count < 2 * count := ceilPowerOfTwo_lt (by omega)
  unfold splitPoint
  omega

end DataSquare
