import DataSquare.Erasure.ExtendedSquare
import DataSquare.Proofs.Outcome
import DataSquare.Proofs.Rounding

/-!
# The shape of an extended square

Chunks are extended exactly when they are a square of a width that the code takes and have one
length. The result has twice as many rows and columns, the chunks stand row by row in its first
quadrant, and an entry of a column is the entry of that row.
-/
namespace DataSquare

namespace ExtendedSquare

variable {α : Type}

/-- Columns of rows of one width are as many as the width. -/
theorem length_columnsOf {width : Nat} {rows : List (List α)}
    (even : ∀ row ∈ rows, row.length = width) : (columnsOf width rows).length = width := by
  induction rows with
  | nil => simp [columnsOf]
  | cons row rows ih =>
    have tail := ih fun other member => even other (List.mem_cons_of_mem row member)
    have head := even row List.mem_cons_self
    change (List.zipWith List.cons row (columnsOf width rows)).length = width
    rw [List.length_zipWith, head, tail, Nat.min_self]

/-- A row of a width has an entry in every column of it. -/
theorem exists_entry {width column : Nat} {row : List α} (inside : column < width)
    (even : row.length = width) : ∃ cell, row[column]? = some cell := by
  rw [← even] at inside
  exact ⟨row[column], List.getElem?_eq_getElem inside⟩

/-- An entry of a column is the entry of its row. -/
theorem columnsOf_entry {width column : Nat} {rows : List (List α)} (inside : column < width)
    (even : ∀ row ∈ rows, row.length = width) :
    (columnsOf width rows)[column]? = some (rows.filterMap (·[column]?)) := by
  induction rows with
  | nil => simp [columnsOf, inside]
  | cons row rows ih =>
    have tail := ih fun other member => even other (List.mem_cons_of_mem row member)
    obtain ⟨cell, entry⟩ := exists_entry inside (even row List.mem_cons_self)
    change (List.zipWith List.cons row (columnsOf width rows))[column]? = _
    rw [List.getElem?_zipWith, tail, entry, List.filterMap_cons, entry]

/-- Every row has an entry in a column. -/
theorem getElem?_filterMap_entry {width column : Nat} {rows : List (List α)}
    (inside : column < width) (even : ∀ row ∈ rows, row.length = width) (position : Nat) :
    (rows.filterMap (·[column]?))[position]? = rows[position]?.bind (·[column]?) := by
  induction rows generalizing position with
  | nil => simp
  | cons row rows ih =>
    have tail := ih fun other member => even other (List.mem_cons_of_mem row member)
    obtain ⟨cell, entry⟩ := exists_entry inside (even row List.mem_cons_self)
    rw [List.filterMap_cons, entry]
    cases position with
    | zero => simp [entry]
    | succ position => simpa using tail position

/-- A column has an entry for every row. -/
theorem length_filterMap_entry {width column : Nat} {rows : List (List α)}
    (inside : column < width) (even : ∀ row ∈ rows, row.length = width) :
    (rows.filterMap (·[column]?)).length = rows.length := by
  induction rows with
  | nil => rfl
  | cons row rows ih =>
    have tail := ih fun other member => even other (List.mem_cons_of_mem row member)
    obtain ⟨cell, entry⟩ := exists_entry inside (even row List.mem_cons_self)
    rw [List.filterMap_cons, entry, List.length_cons, List.length_cons, tail]

/-- The columns of a square of rows are as long as there are rows. -/
theorem length_of_mem_columnsOf {width : Nat} {rows : List (List α)}
    (even : ∀ row ∈ rows, row.length = width) {column : List α}
    (member : column ∈ columnsOf width rows) : column.length = rows.length := by
  obtain ⟨position, inside, rfl⟩ := List.mem_iff_getElem.mp member
  rw [length_columnsOf even] at inside
  have entry := columnsOf_entry inside even
  obtain ⟨_, same⟩ := List.getElem?_eq_some_iff.mp entry
  rw [same]
  exact length_filterMap_entry inside even

/-- A list falls into as many rows as asked for. -/
@[simp] theorem length_rowsOf (width : Nat) (cells : List α) :
    (rowsOf width cells).length = width := by
  simp [rowsOf]

/-- A row of a list. -/
theorem getElem?_rowsOf {width row : Nat} (cells : List α) (inside : row < width) :
    (rowsOf width cells)[row]? = some ((cells.drop (row * width)).take width) := by
  simp [rowsOf, inside]

/-- The rows of a square number of entries are full. -/
theorem length_of_mem_rowsOf {width : Nat} {cells : List α}
    (square : cells.length = width * width) {row : List α} (member : row ∈ rowsOf width cells) :
    row.length = width := by
  obtain ⟨position, inside, rfl⟩ := List.mem_map.mp member
  rw [List.mem_range] at inside
  have room : (position + 1) * width ≤ width * width := Nat.mul_le_mul_right width inside
  rw [Nat.add_mul, Nat.one_mul] at room
  rw [List.length_take, List.length_drop, square]
  omega

end ExtendedSquare

namespace Erasure

/-- There is a chunk for each row of weights. -/
@[simp] theorem length_applyWeights (table : List (List Gf256)) (size : Nat)
    (chunks : List Bytes) : (applyWeights table size chunks).length = table.length := by
  simp [applyWeights]

/-- There are as many parity chunks as data chunks. -/
@[simp] theorem length_parityWeights (count : Nat) : (parityWeights count).length = count := by
  simp [parityWeights, weights]

end Erasure

namespace ExtendedSquare

/-- The rows of the extension of chunks: those of the data and those below it, each followed by
its parity. -/
def extendedRows (width size : Nat) (chunks : List Bytes) : List (List Bytes) :=
  extendRows (Erasure.parityWeights width) size (rowsOf width chunks ++
    columnsOf width ((columnsOf width (rowsOf width chunks)).map
      (Erasure.applyWeights (Erasure.parityWeights width) size)))

/-- Chunks are extended exactly when they make a square that the code takes and have one positive
length. -/
theorem compute_eq_ok {chunks : List Bytes} {square : ExtendedSquare} :
    compute chunks = .ok square ↔
      (0 < square.dataWidth ∧ square.dataWidth ≤ 128 ∧
        chunks.length = square.dataWidth * square.dataWidth) ∧
      (0 < square.chunkSize ∧ ∀ chunk ∈ chunks, chunk.length = square.chunkSize) ∧
      square.rows = extendedRows square.dataWidth square.chunkSize chunks := by
  simp only [compute, Erasure.maxChunks, guard_eq_ok, Except.ok.injEq, not_or, Decidable.not_not,
    List.any_eq_true, bne_iff_ne, not_exists, not_and, Nat.not_lt]
  constructor
  · rintro ⟨⟨nonempty, full⟩, taken, even, positive, rfl⟩
    have bound : ceilSqrt chunks.length ≤ 128 := by omega
    exact ⟨⟨Nat.pos_of_ne_zero nonempty, bound, full.symm⟩, ⟨Nat.pos_of_ne_zero positive, even⟩, rfl⟩
  · rintro ⟨⟨nonempty, taken, full⟩, ⟨positive, even⟩, rows⟩
    have width : ceilSqrt chunks.length = square.dataWidth := by
      rw [full]
      exact ceilSqrt_mul_self square.dataWidth
    have size : (chunks.headD []).length = square.chunkSize := by
      match chunks, full, even with
      | [], full, _ =>
        have cells := Nat.mul_pos nonempty nonempty
        simp only [List.length_nil] at full
        omega
      | chunk :: rest, _, even => exact even chunk List.mem_cons_self
    rw [width, size]
    refine ⟨⟨by omega, full.symm⟩, by omega, even, by omega, ?_⟩
    cases square
    simp only [mk.injEq, true_and]
    exact rows.symm

/-- The parity of a column of the data is as long as the column. -/
theorem length_of_mem_parity {width size : Nat} {chunks : List Bytes} {column : List Bytes}
    (member : column ∈ (columnsOf width (rowsOf width chunks)).map
      (Erasure.applyWeights (Erasure.parityWeights width) size)) : column.length = width := by
  obtain ⟨_, _, rfl⟩ := List.mem_map.mp member
  rw [Erasure.length_applyWeights, Erasure.length_parityWeights]

/-- The rows of an extension are twice as many as those of the data. -/
theorem length_extendedRows (width size : Nat) (chunks : List Bytes) :
    (extendedRows width size chunks).length = 2 * width := by
  rw [extendedRows, extendRows, List.length_map, List.length_append, length_rowsOf,
    length_columnsOf fun _ => length_of_mem_parity]
  omega

/-- The rows of an extension are twice as long as those of the data. -/
theorem length_of_mem_extendedRows {width size : Nat} {chunks : List Bytes}
    (full : chunks.length = width * width) {row : List Bytes}
    (member : row ∈ extendedRows width size chunks) : row.length = 2 * width := by
  obtain ⟨front, inside, rfl⟩ := List.mem_map.mp member
  have length : front.length = width := by
    rcases List.mem_append.mp inside with data | parity
    · exact length_of_mem_rowsOf full data
    · rw [length_of_mem_columnsOf (fun _ => length_of_mem_parity) parity, List.length_map,
        length_columnsOf fun row => length_of_mem_rowsOf full]
  simp only [List.length_append, Erasure.length_applyWeights, Erasure.length_parityWeights, length]
  omega

/-- The rows of the data stand in front of their parity. -/
theorem extendedRows_entry {width row : Nat} (size : Nat) (chunks : List Bytes)
    (inside : row < width) :
    ∃ parity : List Bytes, parity.length = width ∧ (extendedRows width size chunks)[row]? =
      some ((chunks.drop (row * width)).take width ++ parity) := by
  refine ⟨Erasure.applyWeights (Erasure.parityWeights width) size
    ((chunks.drop (row * width)).take width), by simp, ?_⟩
  rw [extendedRows, extendRows, List.getElem?_map,
    List.getElem?_append_left (by rwa [length_rowsOf]), getElem?_rowsOf chunks inside]
  rfl

end ExtendedSquare

end DataSquare
