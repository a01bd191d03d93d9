import DataSquare.Proofs.Erasure.Interpolation

/-!
# The code as a matrix

The code is the matrix of powers of all field points, times the inverse of its square top. Its top
is the identity, so that data are kept, and every square choice of its rows is invertible, because
the field points of up to 256 chunks are distinct. Weights are entries of such matrices: those of
the code itself, and those of the code times the inverse of the rows that are given. A nonzero
vector of data has fewer zeros in its codeword than there are data, and a nonzero square of data has
at least the square of that many nonzero entries in its extension along both directions.
-/
namespace DataSquare.Erasure

open Matrix

/-- Points of different chunks are different. -/
theorem point_injective {position other : Nat} (inside : position < maxChunks)
    (bound : other < maxChunks) (same : point position = point other) : position = other := by
  have bytes := congrArg (fun value : Gf256 => value.byte.toNat) same
  simp only [point, UInt8.toNat_ofNat'] at bytes
  rw [maxChunks] at inside bound
  omega

variable {count rows : Nat}

/-- The powers of field points, up to as many as there are data. -/
def powers (count : Nat) (targets : Fin rows → Gf256) : Matrix (Fin rows) (Fin count) Gf256 :=
  of fun row exponent => targets row ^ (exponent : Nat)

/-- The weights of the values at some field points in those at others. -/
def weightMatrix (nodes : Fin count → Gf256) (targets : Fin rows → Gf256) :
    Matrix (Fin rows) (Fin count) Gf256 :=
  of fun row column => weight (List.ofFn nodes) (targets row) (nodes column)

/-- The field points of chosen chunks of an axis. -/
def pointsAt (places : Fin rows → Fin (2 * count)) (row : Fin rows) : Gf256 := point (places row)

/-- The places of data chunks on an axis. -/
def dataPlaces (count : Nat) : Fin count → Fin (2 * count) :=
  Fin.castLE (Nat.le_mul_of_pos_left count Nat.two_pos)

/-- Data chunks have places of their own. -/
theorem dataPlaces_injective : (dataPlaces count).Injective := Fin.castLE_injective _

/-- The matrix of the code: the powers of the points of all chunks, times the inverse of those of
the data chunks. -/
noncomputable def codeMatrix (count : Nat) : Matrix (Fin (2 * count)) (Fin count) Gf256 :=
  powers count (pointsAt id) * (powers count (pointsAt (dataPlaces count)))⁻¹

/-- Chosen rows of the code. -/
theorem submatrix_codeMatrix (places : Fin rows → Fin (2 * count)) :
    (codeMatrix count).submatrix places id =
      powers count (pointsAt places) * (powers count (pointsAt (dataPlaces count)))⁻¹ := rfl

/-- A weighted sum of as many weights as symbols is a product of vectors. -/
theorem weightedSum_ofFn (weight symbol : Fin count → Gf256) :
    weightedSum 0 (List.ofFn weight) (List.ofFn symbol) = weight ⬝ᵥ symbol := by
  rw [List.ofFn_eq_map, List.ofFn_eq_map, weightedSum_map, zero_add, ← List.ofFn_eq_map,
    List.sum_ofFn]
  rfl

/-- Square matrices of powers of distinct points are invertible. -/
theorem isUnit_det_powers {nodes : Fin count → Gf256} (distinct : nodes.Injective) :
    IsUnit (powers count nodes).det :=
  (det_vandermonde_ne_zero_iff.mpr distinct).isUnit

/-- Weights are powers of the targets times the inverse of the powers of the nodes. -/
theorem weightMatrix_eq {nodes : Fin count → Gf256} (distinct : nodes.Injective)
    (targets : Fin rows → Gf256) :
    weightMatrix nodes targets = powers count targets * (powers count nodes)⁻¹ := by
  have listed : (List.ofFn nodes).Nodup := List.nodup_ofFn.mpr distinct
  have product : weightMatrix nodes targets * powers count nodes = powers count targets := by
    ext row exponent
    have low : (Polynomial.X ^ (exponent : Nat) : Polynomial Gf256).degree <
        (List.ofFn nodes).length := by
      rw [Polynomial.degree_X_pow, List.length_ofFn]
      exact_mod_cast exponent.isLt
    have value := weightedSum_eval listed low (targets row)
    rw [List.map_ofFn, List.map_ofFn, weightedSum_ofFn] at value
    simpa [mul_apply, dotProduct, weightMatrix, powers] using value
  rw [← product, Matrix.mul_assoc, mul_nonsing_inv _ (isUnit_det_powers distinct),
    Matrix.mul_one]

/-- The extension of a square of data along both directions. -/
noncomputable def extension (data : Matrix (Fin count) (Fin count) Gf256) :
    Matrix (Fin (2 * count)) (Fin (2 * count)) Gf256 :=
  codeMatrix count * data * (codeMatrix count)ᵀ

/-- A column of an extension is the codeword of the symbols of the rows there. -/
theorem extension_column (data : Matrix (Fin count) (Fin count) Gf256)
    (column : Fin (2 * count)) : (fun row => extension data row column) =
      codeMatrix count *ᵥ fun row => (codeMatrix count *ᵥ data row) column := by
  funext row
  rw [extension, Matrix.mul_assoc]
  have rows : (fun index => (data * (codeMatrix count)ᵀ) index column) =
      fun index => (codeMatrix count *ᵥ data index) column :=
    funext fun index => dotProduct_comm _ _
  exact congrArg (codeMatrix count row ⬝ᵥ ·) rows

/-- Cells whose rows are codewords, and whose columns over the data are, are the extension of the
data. -/
theorem eq_extension {cells : Matrix (Fin (2 * count)) (Fin (2 * count)) Gf256}
    (rows : ∀ row, cells row =
      codeMatrix count *ᵥ fun column => cells row (dataPlaces count column))
    (columns : ∀ column, (fun row => cells row (dataPlaces count column)) =
      codeMatrix count *ᵥ fun row => cells (dataPlaces count row) (dataPlaces count column)) :
    cells = extension (cells.submatrix (dataPlaces count) (dataPlaces count)) := by
  have left : cells.submatrix id (dataPlaces count) =
      codeMatrix count * cells.submatrix (dataPlaces count) (dataPlaces count) := by
    ext row column
    exact congrFun (columns column) row
  have whole : cells = cells.submatrix id (dataPlaces count) * (codeMatrix count)ᵀ := by
    ext row column
    exact (congrFun (rows row) column).trans (dotProduct_comm _ _)
  rw [extension, ← left]
  exact whole

section Rows

variable (narrow : 2 * count ≤ maxChunks)
include narrow

/-- Different chunks of an axis have different points. -/
theorem pointsAt_injective {places : Fin rows → Fin (2 * count)} (distinct : places.Injective) :
    (pointsAt places).Injective := by
  intro row other same
  apply distinct
  apply Fin.ext
  exact point_injective (by omega) (by omega) same

/-- The powers of the points of the data chunks are invertible. -/
theorem isUnit_det_dataPlaces : IsUnit (powers count (pointsAt (dataPlaces count))).det :=
  isUnit_det_powers (pointsAt_injective narrow dataPlaces_injective)

/-- The rows of the code at the data chunks are the identity. -/
theorem codeMatrix_dataPlaces : (codeMatrix count).submatrix (dataPlaces count) id = 1 :=
  mul_nonsing_inv _ (isUnit_det_dataPlaces narrow)

/-- A codeword starts with its data. -/
theorem codeMatrix_mulVec_dataPlaces (data : Fin count → Gf256) :
    (fun row => (codeMatrix count *ᵥ data) (dataPlaces count row)) = data := by
  change (codeMatrix count).submatrix (dataPlaces count) id *ᵥ data = data
  rw [codeMatrix_dataPlaces narrow, one_mulVec]

variable {places : Fin count → Fin (2 * count)} (distinct : places.Injective)
include distinct

/-- As many rows of the code as there are data are invertible. -/
theorem isUnit_det_codeMatrix : IsUnit ((codeMatrix count).submatrix places id).det := by
  have given := isUnit_det_powers (pointsAt_injective narrow distinct)
  rw [submatrix_codeMatrix, det_mul]
  exact given.mul (isUnit_nonsing_inv_det _ (isUnit_det_dataPlaces narrow))

/-- The weights of given chunks in others are the rows of the code for those, times the inverse of
the rows for the given ones. -/
theorem weightMatrix_pointsAt (targets : Fin rows → Fin (2 * count)) :
    weightMatrix (pointsAt places) (pointsAt targets) =
      (codeMatrix count).submatrix targets id * ((codeMatrix count).submatrix places id)⁻¹ := by
  have top := isUnit_det_dataPlaces narrow
  rw [weightMatrix_eq (pointsAt_injective narrow distinct), submatrix_codeMatrix,
    submatrix_codeMatrix, Matrix.mul_inv_rev, nonsing_inv_nonsing_inv _ top, ← Matrix.mul_assoc,
    Matrix.mul_assoc (powers count (pointsAt targets)), nonsing_inv_mul _ top, Matrix.mul_one]

/-- Given symbols of a codeword, weighted, are the other symbols of the codeword. -/
theorem weightMatrix_mulVec (targets : Fin rows → Fin (2 * count)) (data : Fin count → Gf256) :
    weightMatrix (pointsAt places) (pointsAt targets) *ᵥ
        (fun row => (codeMatrix count *ᵥ data) (places row)) =
      fun row => (codeMatrix count *ᵥ data) (targets row) := by
  have given : (fun row => (codeMatrix count *ᵥ data) (places row)) =
      (codeMatrix count).submatrix places id *ᵥ data := rfl
  rw [weightMatrix_pointsAt narrow distinct, given, mulVec_mulVec, Matrix.mul_assoc,
    nonsing_inv_mul _ (isUnit_det_codeMatrix narrow distinct), Matrix.mul_one]
  rfl

end Rows

section Distance

variable (narrow : 2 * count ≤ maxChunks)
include narrow

/-- The codeword of data other than zero has more nonzero symbols than there are data. -/
theorem lt_hammingNorm_codeMatrix {data : Fin count → Gf256} (nonzero : data ≠ 0) :
    count < hammingNorm (codeMatrix count *ᵥ data) := by
  by_contra few
  -- The symbols vanish at as many places as there are data, and the rows there are invertible.
  have split := Finset.card_filter_add_card_filter_not (s := Finset.univ)
    fun place => (codeMatrix count *ᵥ data) place ≠ 0
  rw [Finset.card_univ, Fintype.card_fin] at split
  change hammingNorm _ + _ = _ at split
  have many : count ≤ (Finset.univ.filter fun place =>
      ¬ (codeMatrix count *ᵥ data) place ≠ 0).card := by omega
  have vanishing : (codeMatrix count).submatrix (Finset.orderEmbOfCardLe _ many) id *ᵥ data =
      0 := by
    funext row
    have member := Finset.orderEmbOfCardLe_mem _ many row
    exact not_not.mp (Finset.mem_filter.mp member).2
  have invertible := isUnit_det_codeMatrix narrow (Finset.orderEmbOfCardLe _ many).injective
  exact nonzero (eq_zero_of_mulVec_eq_zero invertible.ne_zero vanishing)

/-- A nonzero square of data has at least the square of one more than its width of nonzero symbols
in its extension: the row of a nonzero symbol has many, and so has the column of each of these. -/
theorem le_card_extension {data : Matrix (Fin count) (Fin count) Gf256} (nontrivial : data ≠ 0) :
    (count + 1) * (count + 1) ≤ (Finset.univ.filter fun cell : Fin (2 * count) × Fin (2 * count) =>
      extension data cell.1 cell.2 ≠ 0).card := by
  obtain ⟨row, filled⟩ : ∃ row, data row ≠ 0 := Function.ne_iff.mp nontrivial
  have wide := lt_hammingNorm_codeMatrix narrow filled
  have tall (column : Fin (2 * count)) (nonzero : (codeMatrix count *ᵥ data row) column ≠ 0) :
      count < hammingNorm fun index => extension data index column := by
    rw [extension_column]
    exact lt_hammingNorm_codeMatrix narrow fun zero => nonzero (congrFun zero row)
  let nonzero := Finset.univ.filter fun cell : Fin (2 * count) × Fin (2 * count) =>
    extension data cell.1 cell.2 ≠ 0
  let filledColumns := Finset.univ.filter fun column => (codeMatrix count *ᵥ data row) column ≠ 0
  have perColumn (column : Fin (2 * count)) : (nonzero.filter fun cell => cell.2 = column).card =
      hammingNorm fun index => extension data index column := by
    apply Finset.card_bij' (fun cell _ => cell.1) (fun index _ => (index, column))
    all_goals simp +contextual [nonzero, eq_comm]
  calc (count + 1) * (count + 1)
      ≤ ∑ column ∈ filledColumns, (count + 1) := by
        rw [Finset.sum_const, smul_eq_mul]
        exact Nat.mul_le_mul_right _ wide
    _ ≤ ∑ column ∈ filledColumns, (nonzero.filter fun cell => cell.2 = column).card := by
        apply Finset.sum_le_sum
        intro column member
        rw [perColumn]
        exact tall column (Finset.mem_filter.mp member).2
    _ = (nonzero.filter fun cell => cell.2 ∈ filledColumns).card :=
        Finset.sum_card_fiberwise_eq_card_filter nonzero filledColumns Prod.snd
    _ ≤ nonzero.card := Finset.card_filter_le _ _

end Distance

end DataSquare.Erasure
