import Mathlib
import DataSquare.Share.Count

/-!
# Rounding

Widths of the square and of the trees in it come from three roundings: to a power of two, of a
quotient, and of a square root. Each is characterized by its bounds, so that no later argument
opens its definition. Powers of two divide each other as they are ordered, which is all that the
alignment of blobs rests on. Within 64 bits there are rounded powers of two up to 2⁶³ and rounded
roots up to (2³² - 1)², and they are the roundings themselves.
-/
namespace DataSquare

/-- The widths that are accepted are exactly the powers of two. -/
theorem isPowerOfTwo_iff_two_pow (value : Nat) :
    isPowerOfTwo value = true ↔ ∃ exponent, value = 2 ^ exponent := by
  rw [isPowerOfTwo_iff]
  simp only [Nat.one_shiftLeft]

/-- A power of two is recognized. -/
theorem isPowerOfTwo_two_pow (exponent : Nat) : isPowerOfTwo (2 ^ exponent) = true :=
  (isPowerOfTwo_iff_two_pow _).mpr ⟨exponent, rfl⟩

/-- A power of two is positive. -/
theorem pos_of_isPowerOfTwo {value : Nat} (power : isPowerOfTwo value = true) : 0 < value := by
  obtain ⟨exponent, rfl⟩ := (isPowerOfTwo_iff_two_pow value).mp power
  exact Nat.two_pow_pos exponent

/-- A power of two divides every power of two that is not below it. -/
theorem dvd_of_isPowerOfTwo {low high : Nat} (powerLow : isPowerOfTwo low = true)
    (powerHigh : isPowerOfTwo high = true) (ordered : low ≤ high) : low ∣ high := by
  obtain ⟨small, rfl⟩ := (isPowerOfTwo_iff_two_pow low).mp powerLow
  obtain ⟨large, rfl⟩ := (isPowerOfTwo_iff_two_pow high).mp powerHigh
  exact pow_dvd_pow 2 ((Nat.pow_le_pow_iff_right (by decide)).mp ordered)

/-- The lower of two powers of two is one. -/
theorem isPowerOfTwo_min {left right : Nat} (powerLeft : isPowerOfTwo left = true)
    (powerRight : isPowerOfTwo right = true) : isPowerOfTwo (min left right) = true := by
  rcases Nat.le_total left right with ordered | ordered
  · rw [Nat.min_eq_left ordered]
    exact powerLeft
  · rw [Nat.min_eq_right ordered]
    exact powerRight

/-- The higher of two powers of two is one. -/
theorem isPowerOfTwo_max {left right : Nat} (powerLeft : isPowerOfTwo left = true)
    (powerRight : isPowerOfTwo right = true) : isPowerOfTwo (max left right) = true := by
  rcases Nat.le_total left right with ordered | ordered
  · rw [Nat.max_eq_right ordered]
    exact powerRight
  · rw [Nat.max_eq_left ordered]
    exact powerLeft

/-- Rounding up gives a power of two. -/
theorem isPowerOfTwo_ceilPowerOfTwo (value : Nat) : isPowerOfTwo (ceilPowerOfTwo value) = true :=
  (isPowerOfTwo_iff _).mpr (ceilPowerOfTwo_eq_one_shiftLeft value)

/-- Rounding up gives the least power of two that is not below. -/
theorem ceilPowerOfTwo_le {value bound : Nat} (power : isPowerOfTwo bound = true)
    (below : value ≤ bound) : ceilPowerOfTwo value ≤ bound := by
  rcases Nat.eq_zero_or_pos value with rfl | positive
  · exact pos_of_isPowerOfTwo power
  · obtain ⟨large, rfl⟩ := (isPowerOfTwo_iff_two_pow bound).mp power
    obtain ⟨small, rounded⟩ := (isPowerOfTwo_iff_two_pow _).mp (isPowerOfTwo_ceilPowerOfTwo value)
    have close := ceilPowerOfTwo_lt positive
    rw [rounded] at close ⊢
    have twice : 2 ^ small < 2 ^ (large + 1) := by
      rw [Nat.pow_succ]
      omega
    have ordered : small < large + 1 := (Nat.pow_lt_pow_iff_right (by decide)).mp twice
    exact Nat.pow_le_pow_right (by decide) (by omega)

/-- A power of two is not below the rounded value exactly when it is not below the value. -/
theorem ceilPowerOfTwo_le_iff {value bound : Nat} (power : isPowerOfTwo bound = true) :
    ceilPowerOfTwo value ≤ bound ↔ value ≤ bound :=
  ⟨Nat.le_trans (le_ceilPowerOfTwo value), ceilPowerOfTwo_le power⟩

/-- Rounding up keeps the order. -/
theorem ceilPowerOfTwo_mono {low high : Nat} (ordered : low ≤ high) :
    ceilPowerOfTwo low ≤ ceilPowerOfTwo high :=
  ceilPowerOfTwo_le (isPowerOfTwo_ceilPowerOfTwo high)
    (Nat.le_trans ordered (le_ceilPowerOfTwo high))

/-- A value has a rounded power of two of 64 bits exactly up to 2⁶³. -/
theorem ceilPowerOfTwo?_eq_some_iff {value width : Nat} :
    ceilPowerOfTwo? value = some width ↔ value ≤ 2 ^ 63 ∧ width = ceilPowerOfTwo value := by
  rw [ceilPowerOfTwo?, word?_eq_some_iff]
  refine and_congr_left fun _ => ⟨fun fits => ?_, fun small => ?_⟩
  · obtain ⟨exponent, rounded⟩ :=
      (isPowerOfTwo_iff_two_pow _).mp (isPowerOfTwo_ceilPowerOfTwo value)
    rw [rounded] at fits
    have narrow : exponent < 64 := (Nat.pow_lt_pow_iff_right (by decide)).mp fits
    calc
      value ≤ ceilPowerOfTwo value := le_ceilPowerOfTwo value
      _ = 2 ^ exponent := rounded
      _ ≤ 2 ^ 63 := Nat.pow_le_pow_right (by decide) (by omega)
  · exact Nat.lt_of_le_of_lt (ceilPowerOfTwo_le (isPowerOfTwo_two_pow 63) small) (by decide)

/-- Rounding a positive number down gives a power of two. -/
theorem isPowerOfTwo_floorPowerOfTwo {value : Nat} (positive : 0 < value) :
    isPowerOfTwo (floorPowerOfTwo value) = true := by
  rw [floorPowerOfTwo, if_neg (show value ≠ 0 by omega)]
  exact isPowerOfTwo_one_shiftLeft _

/-- Rounding down loses less than half. -/
theorem lt_two_mul_floorPowerOfTwo {value : Nat} (positive : 0 < value) :
    value < 2 * floorPowerOfTwo value := by
  rw [floorPowerOfTwo, if_neg (show value ≠ 0 by omega), Nat.one_shiftLeft]
  have high := Nat.lt_log2_self (n := value)
  rw [Nat.pow_succ] at high
  omega

/-- The least multiple that reaches the dividend is above it by what the remainder lacks. -/
theorem ceilDiv_mul_eq (dividend : Nat) {divisor : Nat} (positive : 0 < divisor) :
    ceilDiv dividend divisor * divisor =
      dividend + (divisor - dividend % divisor) % divisor := by
  have whole := Nat.div_add_mod' dividend divisor
  have rest := Nat.mod_lt dividend positive
  unfold ceilDiv
  by_cases exact : dividend % divisor = 0
  · rw [if_pos exact, exact, Nat.sub_zero, Nat.mod_self]
    omega
  · have lacking : divisor - dividend % divisor < divisor := by omega
    rw [if_neg exact, Nat.mod_eq_of_lt lacking, Nat.add_mul]
    omega

/-- A quotient rounded up, times the divisor, reaches the dividend. -/
theorem le_ceilDiv_mul (dividend : Nat) {divisor : Nat} (positive : 0 < divisor) :
    dividend ≤ ceilDiv dividend divisor * divisor := by
  rw [ceilDiv_mul_eq dividend positive]
  exact Nat.le_add_right _ _

/-- A quotient rounded up is the least multiple that reaches the dividend. -/
theorem ceilDiv_le {dividend divisor bound : Nat}
    (reached : dividend ≤ bound * divisor) : ceilDiv dividend divisor ≤ bound := by
  have quotient : dividend / divisor ≤ bound := Nat.div_le_of_le_mul (by rwa [Nat.mul_comm])
  unfold ceilDiv
  split
  · exact quotient
  · rename_i rest
    have whole := Nat.div_add_mod' dividend divisor
    rcases Nat.lt_or_eq_of_le quotient with below | same
    · exact below
    · rw [same] at whole
      omega

/-- A quotient rounded up is not above the dividend. -/
theorem ceilDiv_le_self {dividend divisor : Nat} (positive : 0 < divisor) :
    ceilDiv dividend divisor ≤ dividend :=
  ceilDiv_le (Nat.le_mul_of_pos_right dividend positive)

/-- Quotients rounded up keep the order of the dividends. -/
theorem ceilDiv_mono {low high divisor : Nat} (positive : 0 < divisor) (ordered : low ≤ high) :
    ceilDiv low divisor ≤ ceilDiv high divisor :=
  ceilDiv_le (Nat.le_trans ordered (le_ceilDiv_mul high positive))

/-- A quotient of a positive number, rounded up, is positive. -/
theorem ceilDiv_pos {dividend divisor : Nat} (positive : 0 < divisor) (nonzero : 0 < dividend) :
    0 < ceilDiv dividend divisor := by
  have reached := le_ceilDiv_mul dividend positive
  by_contra zero
  rw [Nat.eq_zero_of_not_pos zero, Nat.zero_mul] at reached
  omega

/-- Raising a guess reaches the value. -/
theorem le_raiseRoot_mul (value root : Nat) :
    value ≤ raiseRoot value root * raiseRoot value root := by
  fun_induction raiseRoot value root with
  | case1 root below ih => exact ih
  | case2 root reached => exact Nat.le_of_not_lt reached

/-- Lowering a root that reaches the value keeps it so. -/
theorem le_lowerRoot_mul {value root : Nat} (reached : value ≤ root * root) :
    value ≤ lowerRoot value root * lowerRoot value root := by
  induction root with
  | zero => exact reached
  | succ root ih =>
    rw [lowerRoot]
    split
    · rename_i lower
      exact ih lower
    · exact reached

/-- Lowering a root stops at or below every root that reaches the value. -/
theorem lowerRoot_le {value root bound : Nat} (reached : value ≤ bound * bound) :
    lowerRoot value root ≤ bound := by
  induction root with
  | zero => exact Nat.zero_le bound
  | succ root ih =>
    rw [lowerRoot]
    split
    · exact ih
    · rename_i short
      by_contra above
      have ordered : bound ≤ root := by omega
      have squares := Nat.mul_le_mul ordered ordered
      omega

/-- The rounded root reaches the value. -/
theorem le_ceilSqrt_mul (value : Nat) : value ≤ ceilSqrt value * ceilSqrt value := by
  unfold ceilSqrt
  split
  · omega
  · exact le_lowerRoot_mul (le_raiseRoot_mul value _)

/-- The rounded root is the least one that reaches the value. -/
theorem ceilSqrt_le {value bound : Nat} (reached : value ≤ bound * bound) :
    ceilSqrt value ≤ bound := by
  unfold ceilSqrt
  split
  · exact Nat.zero_le bound
  · exact lowerRoot_le reached

/-- A number is not below the rounded root exactly when its square reaches the value. -/
theorem ceilSqrt_le_iff {value bound : Nat} : ceilSqrt value ≤ bound ↔ value ≤ bound * bound := by
  constructor
  · intro above
    exact Nat.le_trans (le_ceilSqrt_mul value) (Nat.mul_le_mul above above)
  · exact ceilSqrt_le

/-- A value has a rounded root whose square has 64 bits exactly up to (2³² - 1)². -/
theorem ceilSqrt?_eq_some_iff {value root : Nat} :
    ceilSqrt? value = some root ↔ value ≤ maxRoot * maxRoot ∧ root = ceilSqrt value := by
  have fits : ceilSqrt value * ceilSqrt value < UInt64.size ↔ ceilSqrt value ≤ maxRoot :=
    (Nat.mul_self_lt_mul_self_iff (n := 2 ^ 32)).trans Nat.lt_succ_iff
  rw [ceilSqrt?, Option.map_eq_some_iff]
  simp only [word?_eq_some_iff, exists_and_right, fits, ceilSqrt_le_iff, eq_comm]
  simp

/-- A width that is a power of two holds some shares exactly when it is not below the width of the
smallest square for them. -/
theorem blobMinSquareSize_le_iff {count width : Nat} (power : isPowerOfTwo width = true) :
    blobMinSquareSize count ≤ width ↔ count ≤ width * width := by
  rw [blobMinSquareSize, ceilPowerOfTwo_le_iff power, ceilSqrt_le_iff]

/-- The smallest square for some shares has a width that is a power of two. -/
theorem isPowerOfTwo_blobMinSquareSize (count : Nat) :
    isPowerOfTwo (blobMinSquareSize count) = true :=
  isPowerOfTwo_ceilPowerOfTwo _

/-- The smallest square for some shares holds them. -/
theorem le_blobMinSquareSize_mul (count : Nat) :
    count ≤ blobMinSquareSize count * blobMinSquareSize count :=
  (blobMinSquareSize_le_iff (isPowerOfTwo_blobMinSquareSize count)).mp (Nat.le_refl _)

/-- Some shares have a smallest square within 64 bits exactly up to (2³² - 1)². -/
theorem blobMinSquareSize?_eq_some_iff {count width : Nat} :
    blobMinSquareSize? count = some width ↔
      count ≤ maxRoot * maxRoot ∧ width = blobMinSquareSize count := by
  rw [blobMinSquareSize?, Option.bind_eq_some_iff]
  constructor
  · rintro ⟨root, found, rounded⟩
    obtain ⟨small, rfl⟩ := ceilSqrt?_eq_some_iff.mp found
    exact ⟨small, (ceilPowerOfTwo?_eq_some_iff.mp rounded).2⟩
  · rintro ⟨small, rfl⟩
    have low : ceilSqrt count ≤ 2 ^ 63 := Nat.le_trans (ceilSqrt_le small) (by decide)
    exact ⟨_, ceilSqrt?_eq_some_iff.mpr ⟨small, rfl⟩, ceilPowerOfTwo?_eq_some_iff.mpr ⟨low, rfl⟩⟩

/-- The rounded root of a square is exact. -/
theorem ceilSqrt_mul_self (root : Nat) : ceilSqrt (root * root) = root := by
  apply Nat.le_antisymm (ceilSqrt_le (Nat.le_refl _))
  exact Nat.mul_self_le_mul_self_iff.mp (le_ceilSqrt_mul (root * root))

end DataSquare
