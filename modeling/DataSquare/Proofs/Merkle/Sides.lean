import DataSquare.Proofs.Merkle.Path
import DataSquare.Proofs.Rounding

/-!
# Sides of siblings

The sides on which siblings stand tell the position of a leaf among the leaves of its tree, and in a
tree whose number of leaves is a power of two also how many there are. A path that is labelled for
another number of leaves still tells the half in which the leaf stands, and in the left half its
position.
-/
namespace DataSquare.Merkle

/-- The split of two to a power is half of it. -/
theorem splitPoint_two_pow (exponent : Nat) : splitPoint (2 ^ (exponent + 1)) = 2 ^ exponent := by
  have fixed : ceilPowerOfTwo (2 ^ (exponent + 1)) = 2 ^ (exponent + 1) :=
    Nat.le_antisymm (ceilPowerOfTwo_le (isPowerOfTwo_two_pow _) (Nat.le_refl _))
      (le_ceilPowerOfTwo _)
  rw [splitPoint, fixed, Nat.pow_succ, Nat.mul_div_cancel _ (by decide)]

/-- The split of a tree of several leaves is a power of two, and the right part is not larger than
the left one. -/
theorem splitPoint_eq_two_pow {count : Nat} (several : 1 < count) :
    ∃ exponent, splitPoint count = 2 ^ exponent ∧ count ≤ 2 * 2 ^ exponent := by
  have above := le_ceilPowerOfTwo count
  obtain ⟨exponent, rounded⟩ :=
    (isPowerOfTwo_iff_two_pow _).mp (isPowerOfTwo_ceilPowerOfTwo count)
  cases exponent with
  | zero =>
    rw [rounded] at above
    omega
  | succ exponent =>
    refine ⟨exponent, ?_, ?_⟩
    · rw [splitPoint, rounded, Nat.pow_succ, Nat.mul_div_cancel _ (by decide)]
    · rw [rounded, Nat.pow_succ] at above
      omega

section Sides

variable {index total : Nat}

/-- No siblings stand beside a single leaf. -/
theorem sides_of_le_one (few : total ≤ 1) : sides index total = [] := by
  rw [sides, dif_pos few]

/-- The last sibling of a leaf on the left stands on the right. -/
theorem sides_of_lt (several : 1 < total) (inside : index < splitPoint total) :
    sides index total = sides index (splitPoint total) ++ [.right] := by
  rw [sides, dif_neg (show ¬ total ≤ 1 by omega)]
  exact if_pos inside

/-- The last sibling of a leaf on the right stands on the left. -/
theorem sides_of_le (several : 1 < total) (outside : splitPoint total ≤ index) :
    sides index total = sides (index - splitPoint total) (total - splitPoint total) ++ [.left] := by
  rw [sides, dif_neg (show ¬ total ≤ 1 by omega)]
  exact if_neg (show ¬ index < splitPoint total by omega)

/-- The siblings of a leaf stand on the sides that its position prescribes. -/
theorem map_side_siblings {α : Type} {empty : α} {node : α → α → α} {leaves : List α} :
    (siblings empty node leaves index).map Sibling.side = sides index leaves.length := by
  induction leaves using splitInduction generalizing index with
  | few leaves few => rw [siblings_of_le_one few, sides_of_le_one few, List.map_nil]
  | several leaves several front back =>
    by_cases inside : index < splitPoint leaves.length
    · rw [siblings_of_lt several inside, sides_of_lt several inside, List.map_append, front,
        length_take_splitPoint several]
      rfl
    · have outside : splitPoint leaves.length ≤ index := by omega
      rw [siblings_of_le several outside, sides_of_le several outside, List.map_append, back,
        List.length_drop]
      rfl

/-- A leaf has at most as many siblings as its tree is high. -/
theorem length_sides_le {exponent : Nat} (bound : total ≤ 2 ^ exponent) :
    (sides index total).length ≤ exponent := by
  induction exponent generalizing index total with
  | zero =>
    rw [sides_of_le_one (by omega), List.length_nil]
  | succ exponent ih =>
    rcases Nat.lt_or_ge 1 total with several | few
    · obtain ⟨small, split, close⟩ := splitPoint_eq_two_pow several
      have upper := splitPoint_lt several
      have half : splitPoint total ≤ 2 ^ exponent := by
        have smaller : 2 ^ small < 2 ^ (exponent + 1) := by omega
        have ordered := (Nat.pow_lt_pow_iff_right (by decide)).mp smaller
        rw [split]
        exact Nat.pow_le_pow_right (by decide) (by omega)
      have rest : total - splitPoint total ≤ 2 ^ exponent := by omega
      by_cases inside : index < splitPoint total
      · have shorter : (sides index (splitPoint total)).length ≤ exponent := ih half
        rw [sides_of_lt several inside, List.length_append, List.length_singleton]
        omega
      · have shorter : (sides (index - splitPoint total) (total - splitPoint total)).length ≤
            exponent := ih rest
        rw [sides_of_le several (by omega), List.length_append, List.length_singleton]
        omega
    · rw [sides_of_le_one few, List.length_nil]
      omega

/-- In a tree whose number of leaves is a power of two every leaf has as many siblings. -/
theorem length_sides_two_pow (exponent : Nat) :
    (sides index (2 ^ exponent)).length = exponent := by
  induction exponent generalizing index with
  | zero => rw [sides_of_le_one (by decide), List.length_nil]
  | succ exponent ih =>
    have several : 1 < 2 ^ (exponent + 1) := Nat.one_lt_two_pow (by omega)
    have half : 2 ^ (exponent + 1) - 2 ^ exponent = 2 ^ exponent := by
      rw [Nat.pow_succ]
      omega
    by_cases inside : index < splitPoint (2 ^ (exponent + 1))
    · rw [sides_of_lt several inside, splitPoint_two_pow, List.length_append, ih]
      rfl
    · rw [sides_of_le several (by omega), splitPoint_two_pow, half, List.length_append, ih]
      rfl

/-- The sides tell the position of a leaf, however many leaves there are. -/
theorem eq_of_sides_eq {other : Nat} (inside : index < total) (otherInside : other < total)
    (same : sides index total = sides other total) : index = other := by
  induction total using Nat.strong_induction_on generalizing index other with
  | _ total ih =>
    rcases Nat.lt_or_ge 1 total with several | few
    · have lower := splitPoint_pos several
      have upper := splitPoint_lt several
      by_cases left : index < splitPoint total
      · rw [sides_of_lt several left] at same
        by_cases otherLeft : other < splitPoint total
        · rw [sides_of_lt several otherLeft] at same
          exact ih _ upper left otherLeft (List.append_inj_left' same rfl)
        · rw [sides_of_le several (by omega)] at same
          exact absurd (List.append_inj_right' same rfl) (by decide)
      · rw [sides_of_le several (by omega)] at same
        by_cases otherLeft : other < splitPoint total
        · rw [sides_of_lt several otherLeft] at same
          exact absurd (List.append_inj_right' same rfl) (by decide)
        · rw [sides_of_le several (by omega)] at same
          have rest := ih (total - splitPoint total) (by omega) (by omega) (by omega)
            (List.append_inj_left' same rfl)
          omega
    · omega

/-- A path that is labelled for any number of leaves belongs to the leaf at its position when that
is in the left half of the tree, and otherwise to a leaf in the right half. -/
theorem half_of_sides_eq {exponent position : Nat} (inside : index < 2 ^ (exponent + 1))
    (labelled : position < total)
    (same : sides position total = sides index (2 ^ (exponent + 1))) :
    (position < 2 ^ exponent → index = position) ∧ (2 ^ exponent ≤ position → 2 ^ exponent ≤ index)
    := by
  have whole : 1 < 2 ^ (exponent + 1) := Nat.one_lt_two_pow (by omega)
  have half : 2 ^ (exponent + 1) - 2 ^ exponent = 2 ^ exponent := by
    rw [Nat.pow_succ]
    omega
  have length := congrArg List.length same
  rw [length_sides_two_pow] at length
  have several : 1 < total := by
    by_contra few
    rw [sides_of_le_one (by omega), List.length_nil] at length
    omega
  obtain ⟨small, split, close⟩ := splitPoint_eq_two_pow several
  by_cases front : position < splitPoint total
  · -- Both leaves are on the left, where the label has as many leaves as the tree.
    rw [sides_of_lt several front] at same length
    rw [split, List.length_append, length_sides_two_pow, List.length_singleton] at length
    obtain rfl : small = exponent := by omega
    by_cases left : index < 2 ^ small
    · rw [sides_of_lt whole (by rwa [splitPoint_two_pow]), splitPoint_two_pow, split] at same
      have equal := eq_of_sides_eq (by omega) left (List.append_inj_left' same rfl)
      omega
    · rw [sides_of_le whole (by rw [splitPoint_two_pow]; omega)] at same
      exact absurd (List.append_inj_right' same rfl) (by decide)
  · -- Both leaves are on the right, and the left part of the label is at least as large.
    have back : splitPoint total ≤ position := by omega
    rw [sides_of_le several back] at same length
    have short : (sides (position - splitPoint total) (total - splitPoint total)).length ≤ small :=
      length_sides_le (by omega)
    rw [List.length_append, List.length_singleton] at length
    have larger : 2 ^ exponent ≤ 2 ^ small := Nat.pow_le_pow_right (by decide) (by omega)
    by_cases left : index < 2 ^ exponent
    · rw [sides_of_lt whole (by rwa [splitPoint_two_pow])] at same
      exact absurd (List.append_inj_right' same rfl) (by decide)
    · omega

end Sides

end DataSquare.Merkle
