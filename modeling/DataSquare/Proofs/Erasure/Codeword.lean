import DataSquare.Proofs.Erasure.Shape
import DataSquare.Proofs.Erasure.Vandermonde

/-!
# Codewords

A codeword is a line of chunks of one size whose symbols are, at every position in the chunks, the
matrix of the code times those of the first half of the line. Data with the parity that is encoded
for them are a codeword, and there is no other one that starts with the data.
-/
namespace DataSquare.Erasure

open Matrix

/-- The symbol of a chunk at a position, zero behind its end. -/
def symbolAt (position : Nat) (chunk : Bytes) : Gf256 := ⟨chunk.getD position 0⟩

/-- The symbols of the first chunks of a line at a position. -/
def symbols (count position : Nat) (line : List Bytes) (index : Fin count) : Gf256 :=
  symbolAt position (line.getD index [])

/-- The chunk of weighted sums of the symbols of chunks, for one row of weights. -/
def combine (row : List Gf256) (size : Nat) (chunks : List Bytes) : Bytes :=
  (columns size chunks).map fun column => (weightedSum 0 row column).byte

/-- Chunks of one size are equal if their symbols are. -/
theorem eq_of_symbolAt {size : Nat} {left right : Bytes} (leftSize : left.length = size)
    (rightSize : right.length = size)
    (same : ∀ position < size, symbolAt position left = symbolAt position right) :
    left = right := by
  apply List.ext_getElem (leftSize.trans rightSize.symm)
  intro position inside bound
  have symbol := same position (leftSize ▸ inside)
  simpa [symbolAt, inside, bound] using symbol

/-- Columns hold the symbols of each position. -/
theorem columns_eq {size : Nat} {chunks : List Bytes}
    (even : ∀ chunk ∈ chunks, chunk.length = size) :
    columns size chunks =
      (List.range size).map fun position => chunks.map (symbolAt position) := by
  induction chunks with
  | nil => simp [columns]
  | cons chunk chunks ih =>
    have tail := ih fun other member => even other (List.mem_cons_of_mem chunk member)
    have head := even chunk List.mem_cons_self
    change List.zipWith _ chunk (columns size chunks) = _
    rw [tail]
    apply List.ext_getElem (by simp [head])
    intro position inside bound
    have within : position < chunk.length := by simpa [head] using bound
    simp [symbolAt, within]

section Combine

variable {size : Nat} {chunks : List Bytes} (even : ∀ chunk ∈ chunks, chunk.length = size)
include even

/-- Combined chunks keep their size. -/
theorem length_combine (row : List Gf256) : (combine row size chunks).length = size := by
  rw [combine, columns_eq even, List.length_map, List.length_map, List.length_range]

/-- A symbol of combined chunks is the weighted sum of their symbols there. -/
theorem symbolAt_combine (row : List Gf256) {position : Nat} (inside : position < size) :
    symbolAt position (combine row size chunks) =
      weightedSum 0 row (chunks.map (symbolAt position)) := by
  rw [symbolAt, combine, columns_eq even]
  simp [inside]

end Combine

/-- Symbols of all chunks of a line, listed. -/
theorem map_symbolAt {count : Nat} {line : List Bytes} (length : line.length = count)
    (position : Nat) : line.map (symbolAt position) = List.ofFn (symbols count position line) := by
  apply List.ext_getElem (by simp [length])
  intro index inside bound
  rw [List.length_map] at inside
  simp [symbols, inside]

/-- Symbols of the first chunks do not depend on the others. -/
theorem symbols_take (count position : Nat) (line : List Bytes) :
    symbols count position (line.take count) = symbols count position line := by
  funext index
  simp [symbols, List.getD_eq_getElem?_getD]

/-- A weighted sum with the weights of nodes in a target is an entry of a product with their
matrix. -/
theorem weightedSum_weights {count rows : Nat} (nodes : Fin count → Gf256)
    (targets : Fin rows → Gf256) (row : Fin rows) (values : Fin count → Gf256) :
    weightedSum 0 ((List.ofFn nodes).map (weight (List.ofFn nodes) (targets row)))
      (List.ofFn values) = (weightMatrix nodes targets *ᵥ values) row := by
  rw [List.map_ofFn, weightedSum_ofFn]
  rfl

/-- A line of chunks of one size whose symbols are the matrix of the code times those of its first
half. -/
structure Codeword (count size : Nat) (line : List Bytes) : Prop where
  /-- The line is twice as long as its data. -/
  length : line.length = 2 * count
  /-- All chunks have one size. -/
  even : ∀ chunk ∈ line, chunk.length = size
  /-- The symbols at every position are a codeword. -/
  symbols_eq : ∀ position < size, symbols (2 * count) position line =
    codeMatrix count *ᵥ symbols count position line

namespace Codeword

variable {count size : Nat} {line other : List Bytes}

/-- A chunk of a codeword has its size. -/
theorem length_getD (codeword : Codeword count size line) {index : Nat}
    (inside : index < 2 * count) : (line.getD index []).length = size := by
  rw [← codeword.length] at inside
  rw [List.getD_eq_getElem _ _ inside]
  exact codeword.even _ (List.getElem_mem inside)

/-- A codeword is fixed by its data. -/
theorem eq_of_take_eq (left : Codeword count size line) (right : Codeword count size other)
    (same : line.take count = other.take count) : line = other := by
  apply List.ext_getElem (left.length.trans right.length.symm)
  intro index inside bound
  apply eq_of_symbolAt (left.even _ (List.getElem_mem inside))
    (right.even _ (List.getElem_mem bound))
  intro position within
  have data : symbols count position line = symbols count position other := by
    rw [← symbols_take, same, symbols_take]
  have equal : symbols (2 * count) position line = symbols (2 * count) position other := by
    rw [left.symbols_eq position within, right.symbols_eq position within, data]
  simpa [symbols, inside, bound] using congrFun equal ⟨index, left.length ▸ inside⟩

end Codeword

/-- The field points of data chunks, listed. -/
theorem map_point_range (count : Nat) :
    (List.range count).map point = List.ofFn (pointsAt (dataPlaces count)) := by
  apply List.ext_getElem (by simp)
  intro index inside bound
  simp [pointsAt, dataPlaces]

/-- The parity chunks are combinations of the data, one for each place behind them. -/
theorem applyWeights_parityWeights (count size : Nat) (data : List Bytes) :
    applyWeights (parityWeights count) size data = (List.range count).map fun row =>
      combine ((List.ofFn (pointsAt (dataPlaces count))).map
        (weight (List.ofFn (pointsAt (dataPlaces count))) (point (count + row)))) size data := by
  rw [parityWeights, weights, map_point_range, applyWeights, List.map_map, List.map_map]
  rfl

section Data

variable {count size : Nat} (narrow : 2 * count ≤ maxChunks) {data : List Bytes}
  (length : data.length = count) (even : ∀ chunk ∈ data, chunk.length = size)
include narrow length even

/-- The symbols of parity chunks are the rows of the code behind the data, times the symbols of
the data. -/
theorem symbolAt_parity {position : Nat} (inside : position < size) {row : Nat}
    (bound : row < count) :
    symbolAt position ((applyWeights (parityWeights count) size data).getD row []) =
      (codeMatrix count *ᵥ symbols count position data) ⟨count + row, by omega⟩ := by
  have weighted := congrFun (weightMatrix_mulVec narrow dataPlaces_injective id
    (symbols count position data)) ⟨count + row, by omega⟩
  rw [codeMatrix_mulVec_dataPlaces narrow, ← weightedSum_weights, ← map_symbolAt length,
    ← symbolAt_combine even _ inside] at weighted
  refine Eq.trans ?_ weighted
  rw [applyWeights_parityWeights, List.getD_eq_getElem?_getD, List.getElem?_map,
    List.getElem?_range bound]
  rfl

/-- Data with their parity are a codeword. -/
theorem codeword_append :
    Codeword count size (data ++ applyWeights (parityWeights count) size data) where
  length := by
    rw [List.length_append, length_applyWeights, length_parityWeights, length]
    omega
  even chunk member := by
    rw [applyWeights_parityWeights] at member
    cases List.mem_append.mp member with
    | inl kept => exact even chunk kept
    | inr parity =>
      obtain ⟨row, _, rfl⟩ := List.mem_map.mp parity
      exact length_combine even _
  symbols_eq position inside := by
    have front : symbols count position (data ++ applyWeights (parityWeights count) size data) =
        symbols count position data := by
      rw [← symbols_take, ← length, List.take_left]
    have top := codeMatrix_mulVec_dataPlaces narrow (symbols count position data)
    rw [front]
    funext index
    rw [symbols]
    by_cases kept : index < count
    · have stored : (index : Nat) < data.length := by rwa [length]
      rw [List.getD_append _ _ _ _ stored]
      exact (congrFun top ⟨index, kept⟩).symm
    · have place : count + (index - count) = (index : Nat) := by omega
      rw [List.getD_append_right _ _ _ _ (by omega), length,
        symbolAt_parity narrow length even inside (by omega)]
      exact congrArg _ (Fin.ext place)

end Data

/-- Data are encoded when they are some, not too many, and of one positive size. -/
theorem checkData_eq_ok {data : List Bytes} : checkData data = .ok () ↔
    0 < data.length ∧ 2 * data.length ≤ maxChunks ∧
      ∃ size, 0 < size ∧ ∀ chunk ∈ data, chunk.length = size := by
  cases data with
  | nil => simp [checkData]
  | cons chunk rest =>
    simp only [checkData, guard_eq_ok, List.isEmpty_cons, List.headD_cons, List.any_eq_true,
      bne_iff_ne, Bool.false_eq_true, not_false_eq_true, true_and, and_true, not_exists, not_and,
      Decidable.not_not, Nat.not_lt]
    constructor
    · rintro ⟨taken, positive, even⟩
      exact ⟨by simp, taken, chunk.length, Nat.pos_of_ne_zero positive, even⟩
    · rintro ⟨_, taken, size, positive, even⟩
      have head := even chunk List.mem_cons_self
      rw [head]
      exact ⟨taken, Nat.pos_iff_ne_zero.mp positive, even⟩

/-- Parity is encoded for data exactly when it continues them to a codeword. -/
theorem encode_eq_ok {data parity : List Bytes} : encode data = .ok parity ↔
    (0 < data.length ∧ 2 * data.length ≤ maxChunks) ∧
      ∃ size, 0 < size ∧ Codeword data.length size (data ++ parity) := by
  have head {size : Nat} (nonzero : 0 < data.length) (even : ∀ chunk ∈ data, chunk.length = size) :
      (data.headD []).length = size := by
    cases data with
    | nil => exact absurd nonzero (Nat.lt_irrefl 0)
    | cons chunk rest => exact even chunk List.mem_cons_self
  rw [encode, map_eq_ok]
  constructor
  · rintro ⟨_, checked, rfl⟩
    obtain ⟨nonzero, taken, size, positive, even⟩ := checkData_eq_ok.mp checked
    rw [head nonzero even]
    exact ⟨⟨nonzero, taken⟩, size, positive, codeword_append taken rfl even⟩
  · rintro ⟨⟨nonzero, taken⟩, size, positive, codeword⟩
    have even (chunk) (member : chunk ∈ data) : chunk.length = size :=
      codeword.even chunk (List.mem_append_left parity member)
    refine ⟨(), checkData_eq_ok.mpr ⟨nonzero, taken, size, positive, even⟩, ?_⟩
    rw [head nonzero even]
    have made := codeword_append taken rfl even
    exact List.append_cancel_left (made.eq_of_take_eq codeword (by simp))

/-- The first half of a codeword is encoded to its second half. -/
theorem Codeword.encode_take {count size : Nat} {line : List Bytes}
    (codeword : Codeword count size line) (nonzero : 0 < count) (narrow : 2 * count ≤ maxChunks)
    (positive : 0 < size) : encode (line.take count) = .ok (line.drop count) := by
  have length : (line.take count).length = count := by
    rw [List.length_take, codeword.length]
    omega
  rw [encode_eq_ok, length, List.take_append_drop]
  exact ⟨⟨nonzero, narrow⟩, size, positive, codeword⟩

end DataSquare.Erasure
