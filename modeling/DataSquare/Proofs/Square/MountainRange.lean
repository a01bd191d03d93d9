import DataSquare.Proofs.Rounding
import DataSquare.Square.Commitment
import DataSquare.Square.Layout

/-!
# Mountain ranges

The shares of a blob are committed to in trees whose widths are powers of two, the widest first.
Where the first tree starts at a multiple of its width, every tree does. The largest width
divides the width of every square that the blob fits in and its alignment there, so that no tree
leaves its row.
-/
namespace DataSquare

/-- The largest width of a subtree is a power of two. -/
theorem isPowerOfTwo_subtreeWidth (shareCount threshold : Nat) :
    isPowerOfTwo (subtreeWidth shareCount threshold) = true :=
  isPowerOfTwo_min (isPowerOfTwo_ceilPowerOfTwo _) (isPowerOfTwo_ceilPowerOfTwo _)

/-- The largest width of a subtree is found within 64 bits exactly when the threshold leaves it at
most 2⁶³ and the shares have a smallest square. -/
theorem subtreeWidth?_eq_some_iff {shareCount threshold width : Nat} :
    subtreeWidth? shareCount threshold = some width ↔
      ceilDiv shareCount (max threshold 1) ≤ 2 ^ 63 ∧ shareCount ≤ maxRoot * maxRoot ∧
        width = subtreeWidth shareCount threshold := by
  rw [subtreeWidth?, Option.bind_eq_some_iff]
  constructor
  · rintro ⟨wide, rounded, found⟩
    obtain ⟨smallest, square, rfl⟩ := Option.map_eq_some_iff.mp found
    obtain ⟨low, rfl⟩ := ceilPowerOfTwo?_eq_some_iff.mp rounded
    obtain ⟨small, rfl⟩ := blobMinSquareSize?_eq_some_iff.mp square
    exact ⟨low, small, rfl⟩
  · rintro ⟨low, small, rfl⟩
    exact ⟨_, ceilPowerOfTwo?_eq_some_iff.mpr ⟨low, rfl⟩,
      Option.map_eq_some_iff.mpr ⟨_, blobMinSquareSize?_eq_some_iff.mpr ⟨small, rfl⟩, rfl⟩⟩

/-- There is a largest width of a subtree within 64 bits up to (2³² - 1)² shares of which the
threshold leaves at most 2⁶³. -/
theorem exists_subtreeWidth?_iff {shareCount threshold : Nat} :
    (∃ width, subtreeWidth? shareCount threshold = some width) ↔
      ceilDiv shareCount (max threshold 1) ≤ 2 ^ 63 ∧ shareCount ≤ maxRoot * maxRoot := by
  simp [subtreeWidth?_eq_some_iff]

/-- Up to 2⁶³ shares have a largest width of a subtree for every threshold. -/
theorem subtreeWidth?_of_le {shareCount : Nat} (small : shareCount ≤ 2 ^ 63) (threshold : Nat) :
    subtreeWidth? shareCount threshold = some (subtreeWidth shareCount threshold) := by
  have roots : 2 ^ 63 ≤ maxRoot * maxRoot := by decide
  have fewer : ceilDiv shareCount (max threshold 1) ≤ shareCount := ceilDiv_le_self (by omega)
  exact subtreeWidth?_eq_some_iff.mpr ⟨fewer.trans small, small.trans roots, rfl⟩

/-- The width of the least square of some shares is not above their number. -/
theorem blobMinSquareSize_le_self {shareCount : Nat} (positive : 0 < shareCount) :
    blobMinSquareSize shareCount ≤ shareCount := by
  have below := floorPowerOfTwo_le shareCount
  have close := lt_two_mul_floorPowerOfTwo positive
  have power := isPowerOfTwo_floorPowerOfTwo positive
  have nonzero := pos_of_isPowerOfTwo power
  have reached : shareCount ≤ floorPowerOfTwo shareCount * floorPowerOfTwo shareCount := by
    rcases Nat.lt_or_ge 1 (floorPowerOfTwo shareCount) with several | one
    · have square := Nat.mul_le_mul_right (floorPowerOfTwo shareCount) several
      omega
    · have unit : floorPowerOfTwo shareCount = 1 := Nat.le_antisymm one nonzero
      rw [unit] at close ⊢
      omega
  exact Nat.le_trans (ceilPowerOfTwo_le power (ceilSqrt_le reached)) below

/-- The largest width of a subtree is not above the number of shares. -/
theorem subtreeWidth_le_self {shareCount : Nat} (positive : 0 < shareCount) (threshold : Nat) :
    subtreeWidth shareCount threshold ≤ shareCount :=
  Nat.le_trans (Nat.min_le_right _ _) (blobMinSquareSize_le_self positive)

/-- The largest width of a subtree divides the width of every square that the shares fit in. -/
theorem subtreeWidth_dvd_squareSize {shareCount squareSize : Nat}
    (power : isPowerOfTwo squareSize = true) (fits : shareCount ≤ squareSize * squareSize)
    (threshold : Nat) : subtreeWidth shareCount threshold ∣ squareSize :=
  dvd_of_isPowerOfTwo (isPowerOfTwo_subtreeWidth shareCount threshold) power
    (Nat.le_trans (Nat.min_le_right _ _) (ceilPowerOfTwo_le power (ceilSqrt_le fits)))

/-- The largest width of a subtree divides the alignment of the shares in every square that they
fit in. -/
theorem subtreeWidth_dvd_blobAlignment {shareCount squareSize : Nat}
    (power : isPowerOfTwo squareSize = true) (fits : shareCount ≤ squareSize * squareSize)
    (threshold : Nat) :
    subtreeWidth shareCount threshold ∣ blobAlignment shareCount squareSize := by
  have narrow := Nat.le_of_dvd (pos_of_isPowerOfTwo power)
    (subtreeWidth_dvd_squareSize power fits threshold)
  have short : subtreeWidth shareCount threshold ≤ ceilPowerOfTwo shareCount :=
    Nat.le_trans (Nat.min_le_left _ _) (ceilPowerOfTwo_mono (ceilDiv_le_self (by omega)))
  exact dvd_of_isPowerOfTwo (isPowerOfTwo_subtreeWidth shareCount threshold)
    (isPowerOfTwo_min (isPowerOfTwo_ceilPowerOfTwo shareCount) power)
    (Nat.le_min.mpr ⟨short, narrow⟩)

/-- Trees of the given widths, each a power of two, start at multiples of their widths when the
first one starts at a position. -/
def AlignedFrom : Nat → List Nat → Prop
  | _, [] => True
  | start, width :: widths =>
    isPowerOfTwo width = true ∧ width ∣ start ∧ AlignedFrom (start + width) widths

/-- The range of some shares starts with its first tree. -/
theorem mountainRange_of_pos {count largest : Nat} (nonzero : 0 < count) (positive : 0 < largest) :
    mountainRange count largest =
      firstWidth count largest :: mountainRange (count - firstWidth count largest) largest := by
  rw [mountainRange, dif_neg (show ¬ (count = 0 ∨ largest = 0) by omega)]

/-- The range of no shares has no trees. -/
@[simp] theorem mountainRange_zero (largest : Nat) : mountainRange 0 largest = [] := by
  rw [mountainRange, dif_pos (.inl rfl)]

/-- The first tree is no wider than the largest width. -/
theorem firstWidth_le_largest (count largest : Nat) : firstWidth count largest ≤ largest := by
  have below := floorPowerOfTwo_le count
  unfold firstWidth
  split <;> omega

/-- The first tree is no wider than the range. -/
theorem firstWidth_le_count (count largest : Nat) : firstWidth count largest ≤ count := by
  have below := floorPowerOfTwo_le count
  unfold firstWidth
  split <;> omega

/-- The width of the first tree of some shares is a power of two. -/
theorem isPowerOfTwo_firstWidth {count largest : Nat} (positive : 0 < count)
    (power : isPowerOfTwo largest = true) : isPowerOfTwo (firstWidth count largest) = true := by
  unfold firstWidth
  split
  · exact power
  · exact isPowerOfTwo_floorPowerOfTwo positive

/-- The next tree is no wider than the first one. -/
theorem firstWidth_sub_le {count largest : Nat} (positive : 0 < count) :
    firstWidth (count - firstWidth count largest) largest ≤ firstWidth count largest := by
  rcases Nat.lt_or_ge count largest with short | long
  · have close := lt_two_mul_floorPowerOfTwo positive
    have next := firstWidth_le_count (count - firstWidth count largest) largest
    have first : firstWidth count largest = floorPowerOfTwo count := by
      rw [firstWidth, if_neg (show ¬ largest ≤ count by omega)]
    omega
  · have first : firstWidth count largest = largest := by rw [firstWidth, if_pos long]
    rw [first]
    exact firstWidth_le_largest _ _

/-- All trees of a range are aligned when the first one is. -/
theorem alignedFrom_mountainRange {count largest start : Nat}
    (power : isPowerOfTwo largest = true) (aligned : firstWidth count largest ∣ start) :
    AlignedFrom start (mountainRange count largest) := by
  have positive := pos_of_isPowerOfTwo power
  induction count using Nat.strong_induction_on generalizing start with
  | _ count ih =>
    rcases Nat.eq_zero_or_pos count with rfl | nonzero
    · rw [mountainRange_zero]
      trivial
    · rw [mountainRange_of_pos nonzero positive]
      have first := isPowerOfTwo_firstWidth nonzero power
      refine ⟨first, aligned, ?_⟩
      have shorter := pos_of_isPowerOfTwo first
      have step : firstWidth count largest ∣ start + firstWidth count largest :=
        Nat.dvd_add aligned (Nat.dvd_refl _)
      rcases Nat.eq_zero_or_pos (count - firstWidth count largest) with nothing | more
      · rw [nothing, mountainRange_zero]
        trivial
      · apply ih _ (by omega)
        exact Nat.dvd_trans (dvd_of_isPowerOfTwo (isPowerOfTwo_firstWidth more power) first
          (firstWidth_sub_le nonzero)) step

/-- The width of every tree of a range divides the largest width. -/
theorem dvd_of_mem_mountainRange {count largest width : Nat}
    (power : isPowerOfTwo largest = true) (member : width ∈ mountainRange count largest) :
    width ∣ largest := by
  induction count using Nat.strong_induction_on with
  | _ count ih =>
    rw [mountainRange] at member
    split at member
    · contradiction
    · rename_i some
      rcases List.mem_cons.mp member with rfl | rest
      · exact dvd_of_isPowerOfTwo (isPowerOfTwo_firstWidth (by omega) power) power
          (firstWidth_le_largest count largest)
      · have shorter : 0 < firstWidth count largest := firstWidth_pos (by omega) (by omega)
        exact ih _ (by omega) rest

/-- The trees of a range cover its shares. -/
theorem sum_mountainRange (count : Nat) {largest : Nat} (positive : 0 < largest) :
    (mountainRange count largest).sum = count := by
  induction count using Nat.strong_induction_on with
  | _ count ih =>
    rcases Nat.eq_zero_or_pos count with rfl | nonzero
    · rw [mountainRange_zero]
      rfl
    · have shorter : 0 < firstWidth count largest := firstWidth_pos (by omega) (by omega)
      have covered := firstWidth_le_count count largest
      rw [mountainRange_of_pos nonzero positive, List.sum_cons, ih _ (by omega)]
      omega

/-- A tree that starts at a multiple of its width ends in the row it starts in. -/
theorem mod_add_le_of_dvd {start width squareSize : Nat} (positive : 0 < squareSize)
    (aligned : width ∣ start) (divides : width ∣ squareSize) :
    start % squareSize + width ≤ squareSize := by
  have column : width ∣ start % squareSize := (Nat.dvd_mod_iff divides).mpr aligned
  have inside := Nat.mod_lt start positive
  have gap : width ∣ squareSize - start % squareSize := Nat.dvd_sub divides column
  have room := Nat.le_of_dvd (by omega) gap
  omega

end DataSquare
