import DataSquare.Proofs.Loop
import DataSquare.Proofs.Rounding

/-!
# Correcting a guess of a square root

A guess of a square root is raised as long as its square is too small and then lowered as long as
the number below would do. Both loops stop whatever the guess is, in the least root whose square
reaches the value. The first loop leaves a number only when its square is below the value, so for a
value of at most (2³² - 1)² it does not go beyond 2³² - 1, and every square it takes has 64 bits.
-/
namespace DataSquare

/-- Raising a guess is a loop that stops. -/
theorem exists_loopRun_raiseRoot (value guess : Nat) : ∃ states,
    LoopRun (fun root => root * root < value) (· + 1) guess states (raiseRoot value guess) := by
  fun_induction raiseRoot value guess with
  | case1 root below ih =>
    obtain ⟨states, run⟩ := ih
    exact ⟨root :: states, .next below run⟩
  | case2 root reached => exact ⟨[root], .stop reached⟩

/-- Lowering a root is a loop that stops. -/
theorem exists_loopRun_lowerRoot (value root : Nat) : ∃ states,
    LoopRun (fun root => 0 < root ∧ value ≤ (root - 1) * (root - 1)) (· - 1) root states
      (lowerRoot value root) := by
  induction root with
  | zero => exact ⟨[0], .stop fun holds => Nat.lt_irrefl 0 holds.1⟩
  | succ root ih =>
    rw [lowerRoot]
    split
    · rename_i enough
      obtain ⟨states, run⟩ := ih
      exact ⟨(root + 1) :: states, .next ⟨Nat.succ_pos root, enough⟩ run⟩
    · rename_i short
      exact ⟨[root + 1], .stop fun holds => short holds.2⟩

section Bounded

variable {value : Nat} {states : List Nat} {first last : Nat}

/-- A guess is not raised beyond the greatest number whose square has 64 bits. -/
theorem le_maxRoot_of_raising (small : value ≤ maxRoot * maxRoot) (start : first ≤ maxRoot)
    (run : LoopRun (fun root => root * root < value) (· + 1) first states last) :
    ∀ root ∈ states, root ≤ maxRoot := by
  refine LoopRun.forall_mem run start fun root below _ => ?_
  have square : root * root < maxRoot * maxRoot := Nat.lt_of_lt_of_le below small
  exact Nat.mul_self_lt_mul_self_iff.mp square

/-- A root is not lowered above where it starts. -/
theorem le_of_lowering
    (run : LoopRun (fun root => 0 < root ∧ value ≤ (root - 1) * (root - 1)) (· - 1)
      first states last) : ∀ root ∈ states, root ≤ first :=
  run.forall_mem (Nat.le_refl first) fun root _ bound => Nat.le_trans (Nat.sub_le root 1) bound

/-- The square of a number that is not too great has 64 bits, and so has the next number. -/
theorem fits_of_le_maxRoot {root : Nat} (bound : root ≤ maxRoot) :
    root * root < UInt64.size ∧ root + 1 < UInt64.size := by
  have square : root * root ≤ maxRoot * maxRoot := Nat.mul_le_mul bound bound
  have room : maxRoot * maxRoot < UInt64.size := by decide
  have few : maxRoot + 1 < UInt64.size := by decide
  omega

end Bounded

/-- A guess that is corrected is the least root whose square reaches the value. -/
theorem isLeast_correctRoot (value guess : Nat) :
    IsLeast {root | value ≤ root * root} (correctRoot value guess) :=
  ⟨le_lowerRoot_mul (le_raiseRoot_mul value guess), fun _ reached => lowerRoot_le reached⟩

/-- The rounded root is the least one whose square reaches the value. -/
theorem isLeast_ceilSqrt (value : Nat) : IsLeast {root | value ≤ root * root} (ceilSqrt value) :=
  ⟨le_ceilSqrt_mul value, fun _ reached => ceilSqrt_le reached⟩

/-- The width of the smallest square for some shares is the least power of two whose square holds
them. -/
theorem isLeast_blobMinSquareSize (count : Nat) :
    IsLeast {width | isPowerOfTwo width = true ∧ count ≤ width * width}
      (blobMinSquareSize count) :=
  ⟨⟨isPowerOfTwo_blobMinSquareSize count, le_blobMinSquareSize_mul count⟩,
    fun _ ⟨power, holds⟩ => (blobMinSquareSize_le_iff power).mpr holds⟩

/-- For every value of at most (2³² - 1)² and every guess of at most 2³² - 1 both loops stop, in the
least root whose square reaches the value, and no number or square that they come to needs more
than 64 bits. So the rounded root does not depend on the guess, and the width of the smallest square
for that many shares is the least power of two whose square holds them, which has 64 bits too. -/
theorem loops_of_correctRoot {value guess : Nat} (small : value ≤ maxRoot * maxRoot)
    (bound : guess ≤ maxRoot) :
    (∃ raised lowered,
      LoopRun (fun root => root * root < value) (· + 1) guess raised (raiseRoot value guess) ∧
      LoopRun (fun root => 0 < root ∧ value ≤ (root - 1) * (root - 1)) (· - 1)
        (raiseRoot value guess) lowered (correctRoot value guess) ∧
      ∀ root ∈ raised ++ lowered, root * root < UInt64.size ∧ root + 1 < UInt64.size) ∧
    IsLeast {root | value ≤ root * root} (correctRoot value guess) ∧
    ceilSqrt value = correctRoot value guess ∧
    IsLeast {width | isPowerOfTwo width = true ∧ value ≤ width * width}
      (blobMinSquareSize value) ∧
    blobMinSquareSize value < UInt64.size := by
  obtain ⟨raised, raising⟩ := exists_loopRun_raiseRoot value guess
  obtain ⟨lowered, lowering⟩ := exists_loopRun_lowerRoot value (raiseRoot value guess)
  have least := isLeast_correctRoot value guess
  have smallest := isLeast_blobMinSquareSize value
  have raisedBound := le_maxRoot_of_raising small bound raising
  have loweredBound := le_of_lowering lowering
  have top := raisedBound _ raising.last_mem
  refine ⟨⟨raised, lowered, raising, lowering, ?_⟩, least, ?_, smallest, ?_⟩
  · intro root member
    apply fits_of_le_maxRoot
    rcases List.mem_append.mp member with up | down
    · exact raisedBound root up
    · exact Nat.le_trans (loweredBound root down) top
  · exact (isLeast_ceilSqrt value).unique least
  · have whole : value ≤ 2 ^ 32 * 2 ^ 32 :=
      Nat.le_trans small (Nat.mul_le_mul (by decide) (by decide))
    have width := smallest.2 ⟨isPowerOfTwo_two_pow 32, whole⟩
    exact Nat.lt_of_le_of_lt width (by decide)

/-- One more than the square of 2³² - 2 has the rounded root 2³² - 1, even from a guess of zero. -/
theorem loops_of_correctRoot_above_square :
    (2 ^ 32 - 2) * (2 ^ 32 - 2) + 1 ≤ maxRoot * maxRoot ∧ 0 ≤ maxRoot ∧
      correctRoot ((2 ^ 32 - 2) * (2 ^ 32 - 2) + 1) 0 = 2 ^ 32 - 1 ∧
      blobMinSquareSize ((2 ^ 32 - 2) * (2 ^ 32 - 2) + 1) = 2 ^ 32 := by
  have small : (2 ^ 32 - 2) * (2 ^ 32 - 2) + 1 ≤ maxRoot * maxRoot := by decide
  obtain ⟨_, root, _, width, _⟩ := loops_of_correctRoot small (Nat.zero_le maxRoot)
  refine ⟨small, Nat.zero_le _, root.unique ⟨by decide, ?_⟩, width.unique ⟨⟨?_, by decide⟩, ?_⟩⟩
  · intro other reached
    by_contra below
    have square := Nat.mul_self_le_mul_self (show other ≤ 2 ^ 32 - 2 by omega)
    exact absurd (Nat.le_trans reached square) (by decide)
  · exact isPowerOfTwo_two_pow 32
  · intro other ⟨power, holds⟩
    obtain ⟨exponent, rfl⟩ := (isPowerOfTwo_iff_two_pow other).mp power
    apply Nat.pow_le_pow_right (by decide)
    by_contra short
    have narrow : 2 ^ exponent ≤ 2 ^ 31 := Nat.pow_le_pow_right (by decide) (by omega)
    exact absurd (Nat.le_trans holds (Nat.mul_self_le_mul_self narrow)) (by decide)

end DataSquare
