import DataSquare.Proofs.Erasure.Codeword

/-!
# Rows and columns of extended squares are codewords

Rows are extended as they stand, and so are the columns over the data. The columns behind them are
never encoded: their cells are those of rows. At every position in the cells, the symbols of an
extended square are the extension of those of the data by a product of matrices, in which both
directions look alike, so these columns are codewords as well.
-/
namespace DataSquare.ExtendedSquare

open Erasure Matrix

/-- An entry of a list that rows of one width make up is that of its row. -/
theorem getElem?_flatten {α : Type} {width column : Nat} {rows : List (List α)}
    (inside : column < width) (even : ∀ row ∈ rows, row.length = width) (row : Nat) :
    rows.flatten[row * width + column]? = rows[row]?.bind (·[column]?) := by
  induction rows generalizing row with
  | nil => simp
  | cons first rows ih =>
    have head := even first List.mem_cons_self
    have tail := ih fun other member => even other (List.mem_cons_of_mem first member)
    rw [List.flatten_cons]
    cases row with
    | zero =>
      rw [List.getElem?_append_left (by omega)]
      simp
    | succ row =>
      have place : (row + 1) * width + column - first.length = row * width + column := by
        rw [head, Nat.add_mul]
        omega
      rw [List.getElem?_append_right (by rw [head, Nat.add_mul]; omega), place, tail]
      rfl

/-- An entry of a list, told by its position, is in the list. -/
theorem getD_mem {α : Type} {list : List α} {index : Nat} (inside : index < list.length)
    (fallback : α) : list.getD index fallback ∈ list := by
  rw [List.getD_eq_getElem _ _ inside]
  exact List.getElem_mem inside

/-- A chunk of a column is that of its row. -/
theorem getD_columnsOf {width column : Nat} {rows : List (List Bytes)} (inside : column < width)
    (even : ∀ row ∈ rows, row.length = width) (row : Nat) :
    ((columnsOf width rows).getD column []).getD row [] = (rows.getD row []).getD column [] := by
  have entry := getElem?_filterMap_entry inside even row
  rw [List.getD_eq_getElem?_getD, List.getD_eq_getElem?_getD, columnsOf_entry inside even,
    Option.getD_some, entry]
  cases found : rows[row]? with
  | none => simp [found]
  | some cells => simp [found]

/-- The cells of columns are cells of rows. -/
theorem exists_row_of_mem_columnsOf {width : Nat} {rows : List (List Bytes)}
    (even : ∀ row ∈ rows, row.length = width) {column : List Bytes}
    (member : column ∈ columnsOf width rows) {cell : Bytes} (stands : cell ∈ column) :
    ∃ row ∈ rows, cell ∈ row := by
  obtain ⟨position, inside, rfl⟩ := List.mem_iff_getElem.mp member
  rw [length_columnsOf even] at inside
  obtain ⟨_, same⟩ := List.getElem?_eq_some_iff.mp (columnsOf_entry inside even)
  rw [same] at stands
  obtain ⟨row, listed, found⟩ := List.mem_filterMap.mp stands
  exact ⟨row, listed, List.mem_of_getElem? found⟩

/-- The rows of the data and of the parity of its columns. -/
def frontRows (width size : Nat) (chunks : List Bytes) : List (List Bytes) :=
  rowsOf width chunks ++ columnsOf width
    ((columnsOf width (rowsOf width chunks)).map (applyWeights (parityWeights width) size))

/-- The symbols at one position in the cells of an extended square. -/
def plane (count position : Nat) (rows : List (List Bytes)) :
    Matrix (Fin (2 * count)) (Fin (2 * count)) Gf256 :=
  of fun row => symbols (2 * count) position (rows.getD row [])

section Data

variable {width size : Nat} {chunks : List Bytes} (full : chunks.length = width * width)
  (even : ∀ chunk ∈ chunks, chunk.length = size)

include full in
/-- There are as many columns of data as rows. -/
theorem length_dataColumns : (columnsOf width (rowsOf width chunks)).length = width :=
  length_columnsOf fun _ => length_of_mem_rowsOf full

include full in
/-- A column of data is as long as a row. -/
theorem length_of_mem_dataColumns {column : List Bytes}
    (member : column ∈ columnsOf width (rowsOf width chunks)) : column.length = width := by
  rw [length_of_mem_columnsOf (fun _ => length_of_mem_rowsOf full) member, length_rowsOf]

include full in
/-- Front rows are as long as rows of data. -/
theorem length_of_mem_frontRows {row : List Bytes} (member : row ∈ frontRows width size chunks) :
    row.length = width := by
  cases List.mem_append.mp member with
  | inl data => exact length_of_mem_rowsOf full data
  | inr parity =>
    rw [length_of_mem_columnsOf (fun _ => length_of_mem_parity) parity, List.length_map,
      length_dataColumns full]

include even in
/-- Cells in rows of the data are of one size. -/
theorem length_cell_of_mem_rowsOf {row : List Bytes} (member : row ∈ rowsOf width chunks)
    {cell : Bytes} (stands : cell ∈ row) : cell.length = size := by
  obtain ⟨index, _, rfl⟩ := List.mem_map.mp member
  exact even cell (List.mem_of_mem_drop (List.mem_of_mem_take stands))

include full even in
/-- Cells in columns of the data are of one size. -/
theorem length_cell_of_mem_dataColumns {column : List Bytes}
    (member : column ∈ columnsOf width (rowsOf width chunks)) {cell : Bytes}
    (stands : cell ∈ column) : cell.length = size := by
  obtain ⟨row, listed, there⟩ :=
    exists_row_of_mem_columnsOf (fun _ => length_of_mem_rowsOf full) member stands
  exact length_cell_of_mem_rowsOf even listed there

variable (narrow : 2 * width ≤ maxChunks)
include full even narrow

/-- A column of the data with its parity is a codeword. -/
theorem codeword_dataColumn {column : List Bytes}
    (member : column ∈ columnsOf width (rowsOf width chunks)) :
    Codeword width size (column ++ applyWeights (parityWeights width) size column) :=
  codeword_append narrow (length_of_mem_dataColumns full member)
    fun _ => length_cell_of_mem_dataColumns full even member

/-- Cells of front rows are of one size. -/
theorem length_cell_of_mem_frontRows {row : List Bytes}
    (member : row ∈ frontRows width size chunks) {cell : Bytes} (stands : cell ∈ row) :
    cell.length = size := by
  cases List.mem_append.mp member with
  | inl data => exact length_cell_of_mem_rowsOf even data stands
  | inr parity =>
    obtain ⟨column, listed, there⟩ :=
      exists_row_of_mem_columnsOf (fun _ => length_of_mem_parity) parity stands
    obtain ⟨data, own, rfl⟩ := List.mem_map.mp listed
    exact (codeword_dataColumn full even narrow own).even cell (List.mem_append_right data there)

/-- Rows of an extended square are codewords. -/
theorem codeword_of_mem_extendedRows {row : List Bytes}
    (member : row ∈ extendedRows width size chunks) : Codeword width size row := by
  obtain ⟨front, listed, rfl⟩ := List.mem_map.mp member
  exact codeword_append narrow (length_of_mem_frontRows full listed)
    fun _ => length_cell_of_mem_frontRows full even narrow listed

omit even narrow in
/-- A cell of the front rows is that of the column of data with its parity. -/
theorem getD_frontRows {row column : Nat} (rowInside : row < 2 * width)
    (columnInside : column < width) : ((frontRows width size chunks).getD row []).getD column [] =
      ((columnsOf width (rowsOf width chunks)).getD column [] ++
        applyWeights (parityWeights width) size
          ((columnsOf width (rowsOf width chunks)).getD column [])).getD row [] := by
  have listed : column < (columnsOf width (rowsOf width chunks)).length := by
    rwa [length_dataColumns full]
  have long : ((columnsOf width (rowsOf width chunks)).getD column []).length = width :=
    length_of_mem_dataColumns full (getD_mem listed _)
  by_cases data : row < width
  · rw [frontRows, List.getD_append _ _ _ _ (by rwa [length_rowsOf]),
      List.getD_append _ _ _ _ (by rwa [long]),
      getD_columnsOf columnInside fun _ => length_of_mem_rowsOf full]
  · have below : row - width < width := by omega
    rw [frontRows, List.getD_append_right _ _ _ _ (by rw [length_rowsOf]; omega),
      List.getD_append_right _ _ _ _ (by rw [long]; omega), length_rowsOf, long,
      getD_columnsOf below fun _ => length_of_mem_parity]
    simp [List.getD_eq_getElem?_getD, listed]

omit even narrow in
/-- A cell over the data is that of the column of data with its parity. -/
theorem getD_extendedRows {row column : Nat} (rowInside : row < 2 * width)
    (columnInside : column < width) :
    ((extendedRows width size chunks).getD row []).getD column [] =
      ((columnsOf width (rowsOf width chunks)).getD column [] ++
        applyWeights (parityWeights width) size
          ((columnsOf width (rowsOf width chunks)).getD column [])).getD row [] := by
  have rows : (frontRows width size chunks).length = 2 * width := by
    have extended := length_extendedRows width size chunks
    rwa [extendedRows, extendRows, List.length_map] at extended
  have listed : row < (frontRows width size chunks).length := by rwa [rows]
  have long := length_of_mem_frontRows full (getD_mem listed [])
  have extended : (extendedRows width size chunks).getD row [] =
      (frontRows width size chunks).getD row [] ++ applyWeights (parityWeights width) size
        ((frontRows width size chunks).getD row []) := by
    change ((frontRows width size chunks).map _).getD row [] = _
    simp [List.getD_eq_getElem?_getD, listed]
  rw [extended, List.getD_append _ _ _ _ (by rwa [long]), getD_frontRows full rowInside columnInside]

/-- The symbols of a row of an extended square are those of its data times the matrix of the
code. -/
theorem plane_row {position : Nat} (inside : position < size) (row : Fin (2 * width)) :
    plane width position (extendedRows width size chunks) row = codeMatrix width *ᵥ
      fun column => plane width position (extendedRows width size chunks) row
        (dataPlaces width column) := by
  have listed : (row : Nat) < (extendedRows width size chunks).length := by
    rw [length_extendedRows]
    exact row.isLt
  have codeword := codeword_of_mem_extendedRows full even narrow (getD_mem listed [])
  exact codeword.symbols_eq position inside

/-- At every position in the cells, an extended square is the extension of its data. -/
theorem plane_eq_extension {position : Nat} (inside : position < size) :
    plane width position (extendedRows width size chunks) =
      extension ((plane width position (extendedRows width size chunks)).submatrix
        (dataPlaces width) (dataPlaces width)) := by
  apply eq_extension (plane_row full even narrow inside)
  -- Rows are codewords in their whole length. Only the columns over the data are encoded, and these
  -- are all that is left to show.
  intro column
  have listed : (column : Nat) < (columnsOf width (rowsOf width chunks)).length := by
    rw [length_dataColumns full]
    exact column.isLt
  have codeword := codeword_dataColumn full even narrow (getD_mem listed [])
  have cells (row : Fin (2 * width)) :
      plane width position (extendedRows width size chunks) row (dataPlaces width column) =
        symbols (2 * width) position _ row :=
    congrArg (symbolAt position) (getD_extendedRows full row.isLt column.isLt)
  have data := codeword.symbols_eq position inside
  refine (funext cells).trans (data.trans ?_)
  exact congrArg (codeMatrix width *ᵥ ·) (funext fun row => (cells (dataPlaces width row)).symm)

/-- Columns of an extended square are codewords, also those that are not over the data. -/
theorem codeword_of_mem_columns {column : List Bytes}
    (member : column ∈ columnsOf (2 * width) (extendedRows width size chunks)) :
    Codeword width size column := by
  have long : ∀ row ∈ extendedRows width size chunks, row.length = 2 * width :=
    fun _ => length_of_mem_extendedRows full
  -- A column behind the data was never encoded, so its symbols are taken from the product of
  -- matrices and not from an extension of chunks.
  refine ⟨?_, ?_, ?_⟩
  · rw [length_of_mem_columnsOf long member, length_extendedRows]
  · intro cell stands
    obtain ⟨row, listed, there⟩ := exists_row_of_mem_columnsOf long member stands
    exact (codeword_of_mem_extendedRows full even narrow listed).even cell there
  intro position inside
  obtain ⟨index, bound, rfl⟩ := List.mem_iff_getElem.mp member
  have narrower : index < 2 * width := by rwa [length_columnsOf long] at bound
  have cells (row : Fin (2 * width)) :
      symbols (2 * width) position (columnsOf (2 * width) (extendedRows width size chunks))[index]
        row = plane width position (extendedRows width size chunks) row ⟨index, narrower⟩ := by
    have cell := getD_columnsOf narrower long row
    rw [List.getD_eq_getElem _ _ bound] at cell
    exact congrArg (symbolAt position) cell
  have column := extension_column ((plane width position
    (extendedRows width size chunks)).submatrix (dataPlaces width) (dataPlaces width))
    ⟨index, narrower⟩
  rw [← plane_eq_extension full even narrow inside] at column
  rw [funext cells, column]
  refine congrArg (codeMatrix width *ᵥ ·) (funext fun row => ?_)
  have data := congrFun (plane_row full even narrow inside (dataPlaces width row))
    ⟨index, narrower⟩
  exact data.symm.trans (cells (dataPlaces width row)).symm

end Data

section Computed

variable {chunks : List Bytes} {square : ExtendedSquare}

/-- A cell is an entry of its row. -/
theorem cell?_eq (computed : compute chunks = .ok square) {column : Nat}
    (inside : column < square.width) (row : Nat) :
    square.cell? row column = square.rows[row]?.bind (·[column]?) := by
  obtain ⟨⟨_, _, full⟩, _, rows⟩ := compute_eq_ok.mp computed
  apply getElem?_flatten inside
  rw [rows]
  exact fun _ => length_of_mem_extendedRows full

/-- The first cells of the first rows are the data, row by row. -/
theorem cell?_data (computed : compute chunks = .ok square) {row column : Nat}
    (rowInside : row < square.dataWidth) (columnInside : column < square.dataWidth) :
    square.cell? row column = chunks[row * square.dataWidth + column]? := by
  obtain ⟨⟨_, _, full⟩, _, rows⟩ := compute_eq_ok.mp computed
  obtain ⟨parity, _, entry⟩ := extendedRows_entry square.chunkSize chunks rowInside
  have wide : column < square.width := by
    rw [width]
    omega
  have room : (row + 1) * square.dataWidth ≤ square.dataWidth * square.dataWidth :=
    Nat.mul_le_mul_right _ rowInside
  rw [Nat.add_mul, Nat.one_mul] at room
  have front : column < ((chunks.drop (row * square.dataWidth)).take square.dataWidth).length := by
    rw [List.length_take, List.length_drop, full]
    omega
  rw [cell?_eq computed wide, rows, entry, Option.bind_some, List.getElem?_append_left front,
    List.getElem?_take_of_lt columnInside, List.getElem?_drop]

/-- What an extended square of chunks is. -/
structure Extends (square : ExtendedSquare) (chunks : List Bytes) : Prop where
  /-- The data are a square of chunks. -/
  full : chunks.length = square.dataWidth * square.dataWidth
  /-- The chunks stand in the first quadrant, row by row. -/
  data : ∀ row < square.dataWidth, ∀ column < square.dataWidth,
    square.cell? row column = chunks[row * square.dataWidth + column]?
  /-- The cells along each row are a codeword, the second half of which encodes the first. -/
  row : ∀ index < 2 * square.dataWidth, ∃ cells, square.line .row index = .ok cells ∧
    (∀ position < 2 * square.dataWidth, cells[position]? = square.cell? index position) ∧
    Codeword square.dataWidth square.chunkSize cells ∧
    encode (cells.take square.dataWidth) = .ok (cells.drop square.dataWidth)
  /-- So are the cells along each column. -/
  column : ∀ index < 2 * square.dataWidth, ∃ cells, square.line .column index = .ok cells ∧
    (∀ position < 2 * square.dataWidth, cells[position]? = square.cell? position index) ∧
    Codeword square.dataWidth square.chunkSize cells ∧
    encode (cells.take square.dataWidth) = .ok (cells.drop square.dataWidth)

/-- A computed square extends its chunks. -/
theorem extends_of_compute (computed : compute chunks = .ok square) : square.Extends chunks := by
  obtain ⟨⟨filled, bound, full⟩, ⟨positive, even⟩, rows⟩ := compute_eq_ok.mp computed
  have narrow : 2 * square.dataWidth ≤ maxChunks := by
    rw [maxChunks]
    omega
  have long : ∀ row ∈ square.rows, row.length = square.width := by
    rw [rows]
    exact fun _ => length_of_mem_extendedRows full
  refine ⟨full, fun _ rowInside _ => cell?_data computed rowInside, ?row, ?column⟩
  case row =>
    intro index inside
    have listed : index < square.rows.length := by
      rwa [rows, length_extendedRows]
    have entry := List.getElem?_eq_getElem listed
    have codeword : Codeword square.dataWidth square.chunkSize square.rows[index] := by
      apply codeword_of_mem_extendedRows full even narrow
      rw [← rows]
      exact List.getElem_mem listed
    refine ⟨square.rows[index], ?_, ?_, codeword, codeword.encode_take filled narrow positive⟩
    · rw [line, lines, entry]
    · intro position within
      rw [cell?_eq computed within, entry]
      rfl
  case column =>
    intro index inside
    have entry : square.columns[index]? = some (square.rows.filterMap (·[index]?)) :=
      columnsOf_entry inside long
    have codeword : Codeword square.dataWidth square.chunkSize
        (square.rows.filterMap (·[index]?)) := by
      apply codeword_of_mem_columns full even narrow
      rw [← rows]
      exact List.mem_of_getElem? entry
    refine ⟨_, ?_, ?_, codeword, codeword.encode_take filled narrow positive⟩
    · rw [line, lines, entry]
    · intro position _
      rw [cell?_eq computed inside, getElem?_filterMap_entry inside long]

/-- A computed square has all its cells, and they are of one size. -/
theorem exists_cell (computed : compute chunks = .ok square) {row column : Nat}
    (rowInside : row < square.width) (columnInside : column < square.width) :
    ∃ cell, square.cell? row column = some cell ∧ cell.length = square.chunkSize := by
  obtain ⟨cells, _, each, codeword, _⟩ := (extends_of_compute computed).row row rowInside
  have listed : column < cells.length := by rwa [codeword.length]
  refine ⟨cells[column], ?_, codeword.even _ (List.getElem_mem listed)⟩
  rw [← each column columnInside]
  exact List.getElem?_eq_getElem listed

end Computed

/-- Chunks are extended exactly when they make a square that is at most 128 wide and have one
positive length, and then every row and every column of the result is a codeword. -/
theorem exists_compute_iff_and_extends (chunks : List Bytes) :
    ((∃ square, compute chunks = .ok square) ↔
      ∃ width size, (0 < width ∧ width ≤ 128 ∧ chunks.length = width * width) ∧
        0 < size ∧ ∀ chunk ∈ chunks, chunk.length = size) ∧
    ∀ square, compute chunks = .ok square → square.Extends chunks := by
  refine ⟨⟨?_, ?_⟩, fun square => extends_of_compute⟩
  · rintro ⟨square, computed⟩
    obtain ⟨shape, sizes, _⟩ := compute_eq_ok.mp computed
    exact ⟨square.dataWidth, square.chunkSize, shape, sizes⟩
  · rintro ⟨width, size, shape, sizes⟩
    exact ⟨⟨width, size, extendedRows width size chunks⟩, compute_eq_ok.mpr ⟨shape, sizes, rfl⟩⟩

/-- Four chunks of one byte are extended, and all rows and columns of the result are codewords. -/
theorem extends_four_chunks : ∃ square, compute [[1], [2], [3], [4]] = .ok square ∧
    square.Extends [[1], [2], [3], [4]] := by
  obtain ⟨taken, each⟩ := exists_compute_iff_and_extends [[1], [2], [3], [4]]
  obtain ⟨square, computed⟩ := taken.mpr ⟨2, 1, by decide, by decide, by decide⟩
  exact ⟨square, computed, each square computed⟩

end DataSquare.ExtendedSquare
