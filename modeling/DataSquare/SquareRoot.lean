import DataSquare.PowerOfTwo

/-!
# Square roots rounded up

The least number whose square is not below a given one. It is found from a starting guess by
two corrections: one raises the guess while its square is too small, the other lowers it while
the number below would do. The result does not depend on the guess. The square of the result is
taken on the way, so there is a root exactly when that square fits 64 bits.
-/
namespace DataSquare

/-- The first number from `root` on whose square is not below `value`. -/
def raiseRoot (value root : Nat) : Nat :=
  if _h : root * root < value then raiseRoot value (root + 1) else root
termination_by value - root
decreasing_by
  have : root < value := by
    rcases Nat.eq_zero_or_pos root with rfl | hpos
    · omega
    · exact Nat.lt_of_le_of_lt (Nat.le_mul_of_pos_left root hpos) ‹_›
  omega

/-- The last number down from `root` before one whose square is below `value`. -/
def lowerRoot (value : Nat) : Nat → Nat
  | 0 => 0
  | root + 1 => if value ≤ root * root then lowerRoot value root else root + 1

/-- Both corrections of a guess. -/
def correctRoot (value guess : Nat) : Nat := lowerRoot value (raiseRoot value guess)

/-- The binary digits of a root below position `bits`, chosen from the highest down. -/
def rootDigits (value : Nat) : Nat → Nat → Nat
  | 0, root => root
  | bits + 1, root =>
    let next := root + 1 <<< bits
    rootDigits value bits (if next * next ≤ value then next else root)

/-- The least number whose square is not below `value`. -/
def ceilSqrt (value : Nat) : Nat :=
  if value = 0 then 0 else correctRoot value (rootDigits value (value.log2 / 2 + 1) 0)

/-- The greatest number whose square has 64 bits. -/
abbrev maxRoot : Nat := UInt32.size - 1

/-- The least number whose square is not below `value`, if that square fits 64 bits. -/
def ceilSqrt? (value : Nat) : Option Nat :=
  let root := ceilSqrt value
  (word? (root * root)).map fun _ => root

end DataSquare
