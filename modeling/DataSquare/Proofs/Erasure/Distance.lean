import DataSquare.Proofs.Erasure.ProductCode

/-!
# Different data give squares that differ in many cells

At every position in the cells, the difference of two extended squares is the extension of the
difference of their data, because the code is linear. Where the data differ it is not zero, and then
it has at least the square of one more than the width of nonzero symbols. So as many cells have to
be withheld before what is left of an extended square does not determine the data.
-/
namespace DataSquare

open Erasure Matrix

/-- The extension of a difference is the difference of the extensions. -/
theorem Erasure.extension_sub {count : Nat} (left right : Matrix (Fin count) (Fin count) Gf256) :
    extension (left - right) = extension left - extension right := by
  rw [extension, Matrix.mul_sub, Matrix.sub_mul]
  rfl

namespace ExtendedSquare

/-- The cells in which two squares of a width differ. -/
def differing (width : Nat) (left right : ExtendedSquare) : Finset (Fin width × Fin width) :=
  Finset.univ.filter fun cell => left.cell? cell.1 cell.2 ≠ right.cell? cell.1 cell.2

section Computed

variable {width : Nat} {chunks : List Bytes} {square : ExtendedSquare}
  (computed : compute chunks = .ok square) (wide : square.dataWidth = width)
include computed wide

/-- The symbols of a computed square at a position are those of its cells. -/
theorem plane_apply (position : Nat) (row column : Fin (2 * width)) :
    plane width position square.rows row column =
      symbolAt position ((square.cell? row column).getD []) := by
  subst wide
  rw [cell?_eq computed column.isLt]
  change symbolAt position ((square.rows.getD row []).getD column []) = _
  rw [List.getD_eq_getElem?_getD, List.getD_eq_getElem?_getD]
  cases found : square.rows[(row : Nat)]? with
  | none => simp
  | some cells => simp

/-- A symbol of the data is that of its chunk. -/
theorem plane_data (position : Nat) (row column : Fin width) :
    plane width position square.rows (dataPlaces width row) (dataPlaces width column) =
      symbolAt position (chunks.getD (row * width + column) []) := by
  rw [plane_apply computed wide]
  subst wide
  rw [List.getD_eq_getElem?_getD, ← cell?_data computed row.isLt column.isLt]
  rfl

/-- At every position a computed square is the extension of its data. -/
theorem plane_of_compute {position : Nat} (inside : position < square.chunkSize) :
    plane width position square.rows = extension
      ((plane width position square.rows).submatrix (dataPlaces width) (dataPlaces width)) := by
  subst wide
  obtain ⟨⟨_, bound, full⟩, ⟨_, even⟩, rows⟩ := compute_eq_ok.mp computed
  have narrow : 2 * square.dataWidth ≤ maxChunks := by
    rw [maxChunks]
    omega
  rw [rows]
  exact plane_eq_extension full even narrow inside

end Computed

section Distance

variable {width : Nat} {left right : List Bytes} {one other : ExtendedSquare}
  (oneComputed : compute left = .ok one) (otherComputed : compute right = .ok other)
  (oneWide : one.dataWidth = width) (otherWide : other.dataWidth = width)
include oneComputed otherComputed oneWide otherWide

/-- Squares with cells of different sizes differ everywhere. -/
theorem differing_eq_univ (sizes : one.chunkSize ≠ other.chunkSize) :
    differing (2 * width) one other = Finset.univ := by
  apply Finset.filter_true_of_mem
  rintro ⟨row, column⟩ _ same
  have inside (place : Fin (2 * width)) : (place : Nat) < one.width := by
    rw [ExtendedSquare.width, oneWide]
    exact place.isLt
  have otherInside (place : Fin (2 * width)) : (place : Nat) < other.width := by
    rw [ExtendedSquare.width, otherWide]
    exact place.isLt
  obtain ⟨cell, stands, length⟩ := exists_cell oneComputed (inside row) (inside column)
  obtain ⟨opposite, there, otherLength⟩ :=
    exists_cell otherComputed (otherInside row) (otherInside column)
  rw [stands, there, Option.some.injEq] at same
  rw [← length, ← otherLength, same] at sizes
  exact sizes rfl

/-- Different data of one size differ in a symbol. -/
theorem exists_symbol_ne (sizes : one.chunkSize = other.chunkSize) (differ : left ≠ right) :
    ∃ position < one.chunkSize, ∃ row column : Fin width,
      symbolAt position (left.getD (row * width + column) []) ≠
        symbolAt position (right.getD (row * width + column) []) := by
  obtain ⟨⟨filled, _, full⟩, ⟨_, even⟩, _⟩ := compute_eq_ok.mp oneComputed
  obtain ⟨⟨_, _, otherFull⟩, ⟨_, otherEven⟩, _⟩ := compute_eq_ok.mp otherComputed
  rw [oneWide] at filled full
  rw [otherWide] at otherFull
  by_contra same
  push Not at same
  apply differ
  apply List.ext_getElem (full.trans otherFull.symm)
  intro index inside bound
  apply eq_of_symbolAt (even _ (List.getElem_mem inside))
  · rw [sizes]
    exact otherEven _ (List.getElem_mem bound)
  intro position within
  have row : index / width < width := by
    rw [Nat.div_lt_iff_lt_mul filled, ← full]
    exact inside
  have column : index % width < width := Nat.mod_lt index filled
  have place : index / width * width + index % width = index := Nat.div_add_mod' index width
  have symbol := same position within ⟨index / width, row⟩ ⟨index % width, column⟩
  simpa [place, inside, bound] using symbol

/-- Different data of one size and width have extensions that differ in at least the square of one
more than the width of cells. -/
theorem le_card_differing_of_sizes (sizes : one.chunkSize = other.chunkSize)
    (differ : left ≠ right) : (width + 1) * (width + 1) ≤
      (differing (2 * width) one other).card := by
  obtain ⟨position, inside, row, column, apart⟩ :=
    exists_symbol_ne oneComputed otherComputed oneWide otherWide sizes differ
  obtain ⟨⟨_, bound, _⟩, _, _⟩ := compute_eq_ok.mp oneComputed
  have narrow : 2 * width ≤ maxChunks := by
    rw [maxChunks]
    omega
  have onePlane := plane_of_compute oneComputed oneWide inside
  have otherPlane := plane_of_compute otherComputed otherWide (sizes ▸ inside)
  let data (square : ExtendedSquare) : Matrix (Fin width) (Fin width) Gf256 :=
    (plane width position square.rows).submatrix (dataPlaces width) (dataPlaces width)
  have nonzero : data one - data other ≠ 0 := by
    intro zero
    have equal : data one row column = data other row column :=
      sub_eq_zero.mp (congrFun (congrFun zero row) column)
    rw [← plane_data oneComputed oneWide, ← plane_data otherComputed otherWide] at apart
    exact apart equal
  refine (le_card_extension narrow nonzero).trans (Finset.card_le_card ?_)
  intro cell member
  rw [Finset.mem_filter] at member
  rw [differing, Finset.mem_filter]
  refine ⟨Finset.mem_univ cell, fun same => member.2 ?_⟩
  rw [extension_sub, ← onePlane, ← otherPlane, Matrix.sub_apply, plane_apply oneComputed oneWide,
    plane_apply otherComputed otherWide, same, sub_self]

/-- Different data of one width have extensions that differ in at least the square of one more than
the width of cells. -/
theorem le_card_differing (differ : left ≠ right) :
    (width + 1) * (width + 1) ≤ (differing (2 * width) one other).card := by
  -- Symbols are compared at one position, which cells of different sizes need not share.
  by_cases sizes : one.chunkSize = other.chunkSize
  · exact le_card_differing_of_sizes oneComputed otherComputed oneWide otherWide sizes differ
  have filled : 0 < width := oneWide ▸ (compute_eq_ok.mp oneComputed).1.1
  have wider : width + 1 ≤ 2 * width := by omega
  rw [differing_eq_univ oneComputed otherComputed oneWide otherWide sizes, Finset.card_univ,
    Fintype.card_prod, Fintype.card_fin]
  exact Nat.mul_le_mul wider wider

end Distance

/-- Squares of chunks of one width, each of chunks of one positive length, are extended, and those
of different data differ in at least the square of one more than the width of cells. So when some
cells are withheld and the others do not tell the two apart, as many are withheld. -/
theorem distance_of_compute {width leftSize rightSize : Nat} {left right : List Bytes}
    (filled : 0 < width) (bound : width ≤ 128) (leftFull : left.length = width * width)
    (rightFull : right.length = width * width) (leftPositive : 0 < leftSize)
    (rightPositive : 0 < rightSize) (leftEven : ∀ chunk ∈ left, chunk.length = leftSize)
    (rightEven : ∀ chunk ∈ right, chunk.length = rightSize) (differ : left ≠ right) :
    ∃ one other, compute left = .ok one ∧ compute right = .ok other ∧
      one.width = 2 * width ∧ other.width = 2 * width ∧
      (width + 1) * (width + 1) ≤ (differing (2 * width) one other).card ∧
      ∀ withheld : Finset (Fin (2 * width) × Fin (2 * width)),
        (∀ cell ∉ withheld, one.cell? cell.1 cell.2 = other.cell? cell.1 cell.2) →
        (width + 1) * (width + 1) ≤ withheld.card := by
  have oneComputed : compute left =
      .ok ⟨width, leftSize, extendedRows width leftSize left⟩ :=
    compute_eq_ok.mpr ⟨⟨filled, bound, leftFull⟩, ⟨leftPositive, leftEven⟩, rfl⟩
  have otherComputed : compute right =
      .ok ⟨width, rightSize, extendedRows width rightSize right⟩ :=
    compute_eq_ok.mpr ⟨⟨filled, bound, rightFull⟩, ⟨rightPositive, rightEven⟩, rfl⟩
  have distance := le_card_differing oneComputed otherComputed rfl rfl differ
  refine ⟨_, _, oneComputed, otherComputed, rfl, rfl, distance, fun withheld agree => ?_⟩
  refine distance.trans (Finset.card_le_card fun cell member => ?_)
  by_contra shown
  exact (Finset.mem_filter.mp member).2 (agree cell shown)

/-- Two squares of four chunks that differ in one byte differ in nine of sixteen cells. -/
theorem distance_of_four_chunks : ∃ one other,
    compute [[1], [2], [3], [4]] = .ok one ∧ compute [[1], [2], [3], [5]] = .ok other ∧
      9 ≤ (differing 4 one other).card := by
  obtain ⟨one, other, oneComputed, otherComputed, _, _, distance, _⟩ :=
    @distance_of_compute 2 1 1 [[1], [2], [3], [4]] [[1], [2], [3], [5]] (by decide) (by decide)
      (by decide) (by decide) (by decide) (by decide) (by decide) (by decide) (by decide)
  exact ⟨one, other, oneComputed, otherComputed, distance⟩

end ExtendedSquare

end DataSquare
