import DataSquare.Proofs.Loop
import DataSquare.Proofs.Square.Layout
import DataSquare.Proofs.Square.MountainRange

/-!
# The shape of mountain ranges

A mountain range is found by a loop that takes off the widest tree that is allowed. It stops since
no tree is empty. While as many shares are left as the largest tree takes, the trees are of the
largest width; behind these every tree is more than half of what is left, so the widths fall. All
widths are powers of two in falling order, and therefore each divides what stands in front of it.
For the shares of a blob the largest width divides the width of the square and the alignment of
the blob, so every tree lies in one row.
-/
namespace DataSquare

/-- The state of the loop that finds a mountain range. -/
structure Peeling where
  /-- The widths of the trees so far. -/
  widths : List Nat
  /-- The shares that are left. -/
  rest : Nat

/-- Takes off the next tree. -/
def Peeling.next (largest : Nat) (state : Peeling) : Peeling :=
  ⟨state.widths ++ [firstWidth state.rest largest],
    state.rest - firstWidth state.rest largest⟩

/-- Taking trees off some shares is a loop that stops with the mountain range of these. -/
theorem exists_loopRun_mountainRange (count : Nat) {largest : Nat} (positive : 0 < largest)
    (widths : List Nat) : ∃ states,
      LoopRun (fun state => 0 < state.rest) (Peeling.next largest) ⟨widths, count⟩ states
        ⟨widths ++ mountainRange count largest, 0⟩ := by
  induction count using Nat.strong_induction_on generalizing widths with
  | _ count ih =>
    rcases Nat.eq_zero_or_pos count with rfl | nonzero
    · rw [mountainRange_zero, List.append_nil]
      exact ⟨_, .stop (Nat.lt_irrefl 0)⟩
    · have shorter : 0 < firstWidth count largest := firstWidth_pos (by omega) (by omega)
      obtain ⟨states, run⟩ := ih (count - firstWidth count largest) (by omega)
        (widths ++ [firstWidth count largest])
      rw [List.append_assoc, List.singleton_append,
        ← mountainRange_of_pos nonzero positive] at run
      exact ⟨_, .next nonzero run⟩

/-- Every tree of aligned ones has a power of two as its width and starts at a multiple of it. -/
theorem AlignedFrom.of_append {start width : Nat} {front back : List Nat}
    (aligned : AlignedFrom start (front ++ width :: back)) :
    isPowerOfTwo width = true ∧ width ∣ start + front.sum := by
  induction front generalizing start with
  | nil => exact ⟨aligned.1, aligned.2.1⟩
  | cons first front ih =>
    rw [List.sum_cons, ← Nat.add_assoc]
    exact ih aligned.2.2

/-- No tree of a range is wider than the range. -/
theorem le_of_mem_mountainRange {count largest width : Nat}
    (member : width ∈ mountainRange count largest) : width ≤ count := by
  induction count using Nat.strong_induction_on with
  | _ count ih =>
    rw [mountainRange] at member
    split at member
    · contradiction
    · rename_i some
      have shorter : 0 < firstWidth count largest := firstWidth_pos (by omega) (by omega)
      rcases List.mem_cons.mp member with rfl | later
      · exact firstWidth_le_count count largest
      · exact Nat.le_trans (ih _ (by omega) later) (Nat.sub_le _ _)

/-- The range of some shares starts with as many largest trees as they hold. -/
theorem mountainRange_eq_append (count : Nat) {largest : Nat} (positive : 0 < largest) :
    mountainRange count largest =
      List.replicate (count / largest) largest ++ mountainRange (count % largest) largest := by
  induction count using Nat.strong_induction_on with
  | _ count ih =>
    rcases Nat.lt_or_ge count largest with short | long
    · rw [Nat.div_eq_of_lt short, Nat.mod_eq_of_lt short]
      rfl
    · have first : firstWidth count largest = largest := if_pos long
      have fewer : count / largest = (count - largest) / largest + 1 :=
        Nat.div_eq_sub_div positive long
      have same : count % largest = (count - largest) % largest := Nat.mod_eq_sub_mod long
      rw [mountainRange_of_pos (by omega) positive, first, ih _ (by omega), fewer, same]
      rfl

/-- The widths of a range that is too short for the largest tree fall. -/
theorem pairwise_mountainRange {count largest : Nat} (short : count < largest) :
    (mountainRange count largest).Pairwise (· > ·) := by
  induction count using Nat.strong_induction_on with
  | _ count ih =>
    rcases Nat.eq_zero_or_pos count with rfl | positive
    · rw [mountainRange_zero]
      exact List.Pairwise.nil
    · have first : firstWidth count largest = floorPowerOfTwo count := if_neg (by omega)
      have close := lt_two_mul_floorPowerOfTwo positive
      have below := floorPowerOfTwo_le count
      rw [mountainRange_of_pos positive (by omega), first]
      apply List.Pairwise.cons
      · -- What is left is less than the tree that was taken off.
        intro width later
        have bound := le_of_mem_mountainRange later
        omega
      · exact ih _ (by omega) (by omega)

/-- The widths of trees that cover some shares in the order of a mountain range. -/
structure IsMountainRange (count largest : Nat) (widths : List Nat) : Prop where
  /-- The trees cover the shares. -/
  covers : widths.sum = count
  /-- All widths are powers of two. -/
  powers : ∀ width ∈ widths, isPowerOfTwo width = true
  /-- There are as many trees of the largest width as fit, and the widths behind them fall. -/
  falls : ∃ lower, widths = List.replicate (count / largest) largest ++ lower ∧
    (∀ width ∈ lower, width < largest) ∧ lower.Pairwise (· > ·)
  /-- Each width divides the sum of those in front of it. -/
  aligned : ∀ front width back, widths = front ++ width :: back → width ∣ front.sum

/-- What the loop finds is a mountain range. -/
theorem isMountainRange_mountainRange (count : Nat) {largest : Nat}
    (power : isPowerOfTwo largest = true) :
    IsMountainRange count largest (mountainRange count largest) := by
  have positive := pos_of_isPowerOfTwo power
  have trees : AlignedFrom 0 (mountainRange count largest) :=
    alignedFrom_mountainRange power (Nat.dvd_zero _)
  have left : count % largest < largest := Nat.mod_lt count positive
  constructor
  · exact sum_mountainRange count positive
  · intro width member
    obtain ⟨front, back, split⟩ := List.append_of_mem member
    exact (AlignedFrom.of_append (split ▸ trees)).1
  · refine ⟨mountainRange (count % largest) largest, mountainRange_eq_append count positive, ?_,
      pairwise_mountainRange left⟩
    intro width member
    exact Nat.lt_of_le_of_lt (le_of_mem_mountainRange member) left
  · intro front width back split
    have multiple := (AlignedFrom.of_append (split ▸ trees)).2
    rwa [Nat.zero_add] at multiple

/-- A tree stands in one row of a square, at a column that is a multiple of its width. -/
structure StandsInRow (squareSize start width : Nat) : Prop where
  /-- The column is a multiple of the width. -/
  column : width ∣ start % squareSize
  /-- All its shares are in the row of the first one. -/
  row : ∀ share, start ≤ share → share < start + width → share / squareSize = start / squareSize

/-- A tree that starts at a multiple of its width stands in one row. -/
theorem standsInRow_of_dvd {squareSize start width : Nat} (positive : 0 < squareSize)
    (aligned : width ∣ start) (divides : width ∣ squareSize) :
    StandsInRow squareSize start width := by
  constructor
  · exact (Nat.dvd_mod_iff divides).mpr aligned
  · intro share behind inside
    have room := mod_add_le_of_dvd positive aligned divides
    have whole := Nat.div_add_mod start squareSize
    apply Nat.div_eq_of_lt_le
    · rw [Nat.mul_comm]
      omega
    · rw [Nat.mul_comm, Nat.mul_add, Nat.mul_one]
      omega

/-- The trees of a blob that is placed at a multiple of its alignment stand in one row each. -/
theorem standsInRow_of_blobAlignment {count squareSize threshold start width : Nat}
    {front back : List Nat} (power : isPowerOfTwo squareSize = true)
    (fits : count ≤ squareSize * squareSize) (placed : blobAlignment count squareSize ∣ start)
    (tree : mountainRange count (subtreeWidth count threshold) = front ++ width :: back) :
    StandsInRow squareSize (start + front.sum) width := by
  have widest := isPowerOfTwo_subtreeWidth count threshold
  have first : subtreeWidth count threshold ∣ start :=
    Nat.dvd_trans (subtreeWidth_dvd_blobAlignment power fits threshold) placed
  have member : width ∈ mountainRange count (subtreeWidth count threshold) := by
    rw [tree]
    exact List.mem_append_right front List.mem_cons_self
  have divides : width ∣ subtreeWidth count threshold := dvd_of_mem_mountainRange widest member
  have before : width ∣ front.sum :=
    (isMountainRange_mountainRange count widest).aligned front width back tree
  exact standsInRow_of_dvd (pos_of_isPowerOfTwo power)
    (Nat.dvd_add (Nat.dvd_trans divides first) before)
    (Nat.dvd_trans divides (subtreeWidth_dvd_squareSize power fits threshold))

/-- For a largest width that is a power of two the loop stops with a mountain range, since each
tree that it takes off has shares and is no wider than what is left. In every square that the
shares fit in, and for every threshold, the largest width of their subtrees, where it is found
within 64 bits, is a power of two that divides the width of the square. It divides their alignment
there, where that is found within 64 bits, so that each of their trees stands in one row wherever
they are placed at a multiple of their alignment. The alignment is found up to 2⁶³ shares and the
largest width up to (2³² - 1)² shares of which the threshold leaves at most 2⁶³, so that both are
found up to 2⁶³ shares. -/
theorem rows_of_mountainRange (count : Nat) :
    (∀ largest, isPowerOfTwo largest = true →
      (∀ rest, 0 < rest → 0 < firstWidth rest largest ∧ firstWidth rest largest ≤ rest) ∧
      (∃ states, LoopRun (fun state => 0 < state.rest) (Peeling.next largest) ⟨[], count⟩ states
        ⟨mountainRange count largest, 0⟩) ∧
      IsMountainRange count largest (mountainRange count largest)) ∧
    ∀ squareSize threshold, isPowerOfTwo squareSize = true → count ≤ squareSize * squareSize →
      (∀ largest, subtreeWidth? count threshold = some largest →
        isPowerOfTwo largest = true ∧ largest ∣ squareSize ∧
        ∀ alignment, blobAlignment? count squareSize = some alignment → largest ∣ alignment ∧
          ∀ start, alignment ∣ start → ∀ front width back,
            mountainRange count largest = front ++ width :: back →
              StandsInRow squareSize (start + front.sum) width) ∧
      ((∃ largest, subtreeWidth? count threshold = some largest) ↔
        ceilDiv count (max threshold 1) ≤ 2 ^ 63 ∧ count ≤ maxRoot * maxRoot) ∧
      ((∃ alignment, blobAlignment? count squareSize = some alignment) ↔ count ≤ 2 ^ 63) ∧
      (count ≤ 2 ^ 63 → ∃ largest, subtreeWidth? count threshold = some largest) := by
  constructor
  · intro largest power
    have positive := pos_of_isPowerOfTwo power
    refine ⟨fun rest nonempty => ?_, ?_, isMountainRange_mountainRange count power⟩
    · exact ⟨firstWidth_pos (by omega) (by omega), firstWidth_le_count rest largest⟩
    · exact exists_loopRun_mountainRange count positive []
  · intro squareSize threshold power fits
    refine ⟨fun largest chosen => ?_, exists_subtreeWidth?_iff,
      Layout.exists_blobAlignment?_iff, fun small => ⟨_, subtreeWidth?_of_le small threshold⟩⟩
    obtain ⟨_, _, rfl⟩ := subtreeWidth?_eq_some_iff.mp chosen
    refine ⟨isPowerOfTwo_subtreeWidth count threshold,
      subtreeWidth_dvd_squareSize power fits threshold, fun alignment found => ?_⟩
    obtain ⟨_, rfl⟩ := Layout.blobAlignment?_eq_some_iff.mp found
    exact ⟨subtreeWidth_dvd_blobAlignment power fits threshold,
      fun start placed front width back => standsInRow_of_blobAlignment power fits placed⟩

/-- Eleven shares in a square of width four have trees of widths four, four, two and one, also for a
threshold of zero, and the third of them stands in one row. -/
theorem rows_of_mountainRange_eleven :
    isPowerOfTwo 4 = true ∧ 11 ≤ 4 * 4 ∧ subtreeWidth? 11 0 = some 4 ∧
      blobAlignment? 11 4 = some 4 ∧ mountainRange 11 4 = [4, 4] ++ 2 :: [1] ∧
      IsMountainRange 11 4 (mountainRange 11 4) ∧ StandsInRow 4 (4 + [4, 4].sum) 2 := by
  have power : isPowerOfTwo 4 = true := by decide
  have chosen : subtreeWidth? 11 0 = some 4 := by decide +kernel
  have aligned : blobAlignment? 11 4 = some 4 := by decide
  have trees : mountainRange 11 4 = [4, 4] ++ 2 :: [1] := by decide +kernel
  obtain ⟨ranges, squares⟩ := rows_of_mountainRange 11
  obtain ⟨widths, _⟩ := squares 4 0 power (by decide)
  obtain ⟨_, rows⟩ := (widths 4 chosen).2.2 4 aligned
  exact ⟨power, by decide, chosen, aligned, trees, (ranges 4 power).2.2,
    rows 4 (Nat.dvd_refl 4) _ _ _ trees⟩

/-- One share more than 2⁶³ fits in a square of width 2³². With a threshold of one the largest width
of its subtrees is not found within 64 bits, and its alignment there is not either. -/
theorem subtreeWidth?_of_many_shares :
    isPowerOfTwo (2 ^ 32) = true ∧ 2 ^ 63 + 1 ≤ 2 ^ 32 * 2 ^ 32 ∧
      subtreeWidth? (2 ^ 63 + 1) 1 = none ∧ blobAlignment? (2 ^ 63 + 1) (2 ^ 32) = none := by
  refine ⟨by decide, by decide, ?_, by decide⟩
  apply Option.eq_none_iff_forall_ne_some.mpr
  intro width chosen
  have few : ceilDiv (2 ^ 63 + 1) (max 1 1) ≤ 2 ^ 63 := (subtreeWidth?_eq_some_iff.mp chosen).1
  exact absurd few (by decide)

end DataSquare
