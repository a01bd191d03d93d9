import Mathlib
import DataSquare.Erasure.Gf256

/-!
# The field of symbols

Doubling a symbol keeps sums, and a product is a sum of doublings of its left factor. Hence
products distribute over sums, and two factors may be exchanged, from which the laws of a
commutative ring follow. Inverses need one more idea than laws of sums: every symbol is a sum of
powers of x, so that raising to the power 256, which keeps sums, changes none of them. The power
255 of a symbol is then an idempotent, and there are no others than zero and one.
-/
namespace DataSquare.Erasure.Gf256

section Bytes

/-- What a single bit of a sum selects is the sum of what that bit of each part selects. -/
theorem select_xor (mask : UInt8) (single : ∀ byte, byte &&& mask = 0 ∨ byte &&& mask = mask)
    (left right value : UInt8) : (if (left ^^^ right) &&& mask = 0 then 0 else value) =
      (if left &&& mask = 0 then 0 else value) ^^^ (if right &&& mask = 0 then 0 else value) := by
  have parts : (left ^^^ right) &&& mask = (left &&& mask) ^^^ (right &&& mask) := by
    apply UInt8.toBitVec_inj.mp
    ext bit
    simp [Bool.and_xor_distrib_right]
  rw [parts]
  rcases single left with clear | set <;> rcases single right with otherClear | otherSet <;> simp [*]

/-- Doubling keeps sums. -/
theorem double_xor (left right : UInt8) :
    double (left ^^^ right) = double left ^^^ double right := by
  have carried := select_xor 0x80 (by decide +kernel) left right 0x1d
  rw [double, double, double, carried, UInt8.shiftLeft_xor]
  ac_rfl

/-- A product of a sum on the left is the sum of the products. -/
theorem multiply_xor_left (count : Nat) (left right factor : UInt8) :
    multiply count (left ^^^ right) factor =
      multiply count left factor ^^^ multiply count right factor := by
  induction count generalizing left right factor with
  | zero => exact UInt8.xor_self.symm
  | succ count ih =>
    rw [multiply, multiply, multiply, double_xor, ih]
    by_cases even : factor &&& 1 = 0
    · simp only [even, if_true, UInt8.zero_xor]
    · simp only [even, if_false]
      ac_rfl

/-- A product of a sum on the right is the sum of the products. -/
theorem multiply_xor_right (count : Nat) (factor left right : UInt8) :
    multiply count factor (left ^^^ right) =
      multiply count factor left ^^^ multiply count factor right := by
  induction count generalizing factor left right with
  | zero => exact UInt8.xor_self.symm
  | succ count ih =>
    have chosen := select_xor 1 (by decide +kernel) left right factor
    rw [multiply, multiply, multiply, chosen, UInt8.shiftRight_xor, ih]
    ac_rfl

/-- A product of zero is zero. -/
theorem multiply_zero_left (count : Nat) (right : UInt8) : multiply count 0 right = 0 := by
  have twice := multiply_xor_left count 0 0 right
  rwa [UInt8.xor_self, UInt8.xor_self] at twice

/-- The product of a doubled factor is the doubled product. -/
theorem multiply_double (count : Nat) (left right : UInt8) :
    multiply count (double left) right = double (multiply count left right) := by
  have doubleZero : double 0 = 0 := by decide
  induction count generalizing left right with
  | zero => exact doubleZero.symm
  | succ count ih =>
    rw [multiply, multiply, ih, double_xor, apply_ite double, doubleZero]

/-- It does not matter by which of two factors is multiplied first. -/
theorem multiply_right_comm (count other : Nat) (value left right : UInt8) :
    multiply count (multiply other value left) right =
      multiply other (multiply count value right) left := by
  induction count generalizing value right with
  | zero => rw [multiply, multiply, multiply_zero_left]
  | succ count ih =>
    rw [multiply, multiply, multiply_xor_left, ← ih, multiply_double other value left,
      apply_ite (multiply other · left), multiply_zero_left]

/-- One times a byte is the byte. -/
theorem one_multiply : ∀ byte : UInt8, multiply 8 1 byte = byte := by
  decide +kernel

/-- Only zero and one are their own squares. -/
theorem eq_zero_or_one_of_multiply_self :
    ∀ byte : UInt8, multiply 8 byte byte = byte → byte = 0 ∨ byte = 1 := by
  decide +kernel

end Bytes

/-- Factors may be exchanged: both are multiples of one. -/
theorem multiply_comm (left right : Gf256) : left * right = right * left := by
  have swapped := multiply_right_comm 8 8 1 left.byte right.byte
  rw [one_multiply, one_multiply] at swapped
  exact congrArg mk swapped

/-- Products may be taken in any order: the middle factor is moved to the end. -/
theorem multiply_assoc (left middle right : Gf256) :
    left * middle * right = left * (middle * right) := by
  calc
    left * middle * right = middle * left * right := by rw [multiply_comm left middle]
    _ = middle * right * left := congrArg mk (multiply_right_comm 8 8 _ _ _)
    _ = left * (middle * right) := multiply_comm _ _

instance : CommRing Gf256 where
  add_assoc _ _ _ := congrArg mk (UInt8.xor_assoc _ _ _)
  zero_add _ := congrArg mk UInt8.zero_xor
  add_zero _ := congrArg mk UInt8.xor_zero
  add_comm _ _ := congrArg mk (UInt8.xor_comm _ _)
  neg_add_cancel _ := congrArg mk UInt8.xor_self
  left_distrib _ _ _ := congrArg mk (multiply_xor_right 8 _ _ _)
  right_distrib _ _ _ := congrArg mk (multiply_xor_left 8 _ _ _)
  zero_mul _ := congrArg mk (multiply_zero_left 8 _)
  mul_zero value := (multiply_comm value 0).trans (congrArg mk (multiply_zero_left 8 _))
  one_mul _ := congrArg mk (one_multiply _)
  mul_one value := (multiply_comm value 1).trans (congrArg mk (one_multiply _))
  mul_comm := multiply_comm
  mul_assoc := multiply_assoc
  nsmul := nsmulRec
  zsmul := zsmulRec

instance : CharP Gf256 2 := CharTwo.of_one_ne_zero_of_two_eq_zero (by decide) (by decide)

/-- Powers are those of the ring. -/
theorem power_eq_pow (base : Gf256) (exponent : Nat) : power base exponent = base ^ exponent := by
  induction exponent with
  | zero => rw [power, pow_zero]
  | succ exponent ih => rw [power, ih, pow_succ]

/-- The polynomial x. -/
def indeterminate : Gf256 := ⟨2⟩

/-- Doubling is multiplication by x. -/
theorem mul_indeterminate (value : Gf256) : value * indeterminate = ⟨double value.byte⟩ := by
  rw [multiply_comm]
  have unit : indeterminate = ⟨double 1⟩ := by decide
  rw [unit]
  exact congrArg mk ((multiply_double 8 1 value.byte).trans (congrArg double (one_multiply _)))

/-- A subring with x holds all sums of doublings of its elements. -/
theorem mem_of_indeterminate_mem {part : Subring Gf256} (inside : indeterminate ∈ part)
    (count : Nat) {left : Gf256} (member : left ∈ part) (right : UInt8) :
    (⟨multiply count left.byte right⟩ : Gf256) ∈ part := by
  induction count generalizing left right with
  | zero => exact part.zero_mem
  | succ count ih =>
    have doubled : (⟨double left.byte⟩ : Gf256) ∈ part := by
      rw [← mul_indeterminate]
      exact part.mul_mem member inside
    have rest := ih doubled (right >>> 1)
    by_cases even : right &&& 1 = 0
    · rw [multiply, if_pos even, UInt8.zero_xor]
      exact rest
    · rw [multiply, if_neg even]
      exact part.add_mem member rest

/-- Every symbol is its own power 256. -/
theorem pow_eq_self (value : Gf256) : value ^ 256 = value := by
  have fixed : indeterminate ∈ (iterateFrobenius Gf256 2 8).eqLocus (RingHom.id Gf256) := by
    change indeterminate ^ 256 = indeterminate
    rw [← power_eq_pow]
    decide +kernel
  have sums := mem_of_indeterminate_mem fixed 8 (Subring.one_mem _) value.byte
  have own : (⟨multiply 8 (1 : Gf256).byte value.byte⟩ : Gf256) = value :=
    congrArg mk (one_multiply _)
  rw [own] at sums
  exact sums

/-- A symbol other than zero has an inverse. -/
theorem multiply_inv_cancel (value : Gf256) (nonzero : value ≠ 0) : value * value⁻¹ = 1 := by
  have inverse : value⁻¹ = value ^ 254 := power_eq_pow value 254
  have whole : value * value⁻¹ = value ^ 255 := by rw [inverse, ← pow_succ']
  -- Power 255 is its own square, so it is zero or one, and it is zero for no symbol but zero.
  have idempotent : value ^ 255 * value ^ 255 = value ^ 255 := by
    calc
      value ^ 255 * value ^ 255 = value ^ 256 * value ^ 254 := by ring
      _ = value ^ 255 := by rw [pow_eq_self, ← pow_succ']
  rcases eq_zero_or_one_of_multiply_self _ (congrArg byte idempotent) with zero | one
  · have power : value ^ 255 = 0 := congrArg mk zero
    refine absurd ?_ nonzero
    rw [← pow_eq_self value, pow_succ, power, zero_mul]
  · rw [whole]
    exact congrArg mk one

instance : Field Gf256 where
  inv_zero := by decide
  exists_pair_ne := ⟨0, 1, by decide⟩
  mul_inv_cancel := multiply_inv_cancel
  div_eq_mul_inv _ _ := rfl
  nnqsmul := _
  nnqsmul_def _ _ := rfl
  qsmul := _
  qsmul_def _ _ := rfl

end DataSquare.Erasure.Gf256
