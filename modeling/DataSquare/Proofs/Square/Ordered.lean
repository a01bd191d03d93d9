import DataSquare.Proofs.Square.Header

/-!
# Squares in order

A square has a header whenever the namespaces of its shares do not go down along any row or column:
parity comes after every namespace. Shares that are in order as a whole, row by row, are in order
along the columns too.
-/
namespace DataSquare

open Merkle

/-- Every share starts with a namespace, and no share stands in one below that of a share before
it. -/
structure Ordered (shares : List Share) : Prop where
  /-- Every share starts with its namespace. -/
  stands : ∀ share ∈ shares, share.ns = .ok share.space
  /-- The namespaces do not go down. -/
  ordered : shares.Pairwise fun left right => left.space ≤ right.space

namespace Ordered

/-- Shares in one namespace are in order. -/
theorem of_ns {shares : List Share} {ns : Namespace}
    (stands : ∀ share ∈ shares, share.ns = .ok ns) : Ordered shares where
  stands share member := by rw [Share.space_of_ns (stands share member), stands share member]
  ordered := by
    rw [List.pairwise_iff_forall_sublist]
    intro left right pair
    rw [Share.space_of_ns (stands left (pair.subset (by simp))),
      Share.space_of_ns (stands right (pair.subset (by simp)))]
    exact Namespace.le_refl _

/-- Shares in order stay in order with others behind them that stand in no lower namespace. -/
theorem append {front back : List Share} (first : Ordered front) (second : Ordered back)
    (across : ∀ left ∈ front, ∀ right ∈ back, left.space ≤ right.space) :
    Ordered (front ++ back) where
  stands share member := (List.mem_append.mp member).elim (first.stands share) (second.stands share)
  ordered := List.pairwise_append.mpr ⟨first.ordered, second.ordered, across⟩

/-- The namespace of the share at a position. There is parity after the last share. -/
def spaceAt (shares : List Share) (position : Nat) : Namespace :=
  (shares[position]?.map Share.space).getD Namespace.parity

/-- The namespaces of shares in order do not go down from position to position. -/
theorem spaceAt_le {shares : List Share} (ordered : Ordered shares) {first second : Nat}
    (before : first ≤ second) : spaceAt shares first ≤ spaceAt shares second := by
  rcases Nat.lt_or_ge second shares.length with inside | outside
  · rw [spaceAt, spaceAt, List.getElem?_eq_getElem inside, List.getElem?_eq_getElem (by omega)]
    rcases Nat.lt_or_eq_of_le before with earlier | same
    · exact List.pairwise_iff_getElem.mp ordered.ordered first second _ _ earlier
    · subst same
      exact Namespace.le_refl _
  · rw [spaceAt, spaceAt, List.getElem?_eq_none outside]
    exact Namespace.le_parity _

end Ordered

/-- A row or column has a tree when its cells in the data quadrant stand in namespaces that do not
go down. -/
theorem CellTree.exists_ofLine {squareSize index : Nat} {strip : List Bytes}
    {space : Nat → Namespace}
    (stands : index < squareSize → ∀ position < squareSize, ∀ cell,
      strip[position]? = some cell →
        CellTree.namespaceAt squareSize index position cell = .ok (space position))
    (ordered : index < squareSize → ∀ first second, first < second → second < squareSize →
      space first ≤ space second) :
    ∃ tree, CellTree.ofLine squareSize index strip = .ok tree := by
  refine ⟨_, CellTree.ofLine_eq_ok.mpr ⟨(List.range strip.length).map fun position =>
    if index < squareSize ∧ position < squareSize then space position else Namespace.parity,
    CellTree.namespacesFrom_eq_ok.mpr ⟨by simp, fun position cell found => ?_⟩, ?_, rfl⟩⟩
  · obtain ⟨inside, _⟩ := List.getElem?_eq_some_iff.mp found
    refine ⟨_, by rw [List.getElem?_map, List.getElem?_range inside]; rfl, ?_⟩
    rw [Nat.zero_add]
    dsimp only
    by_cases quadrant : index < squareSize ∧ position < squareSize
    · rw [if_pos quadrant]
      exact stands quadrant.1 position quadrant.2 cell found
    · rw [if_neg quadrant]
      have outside : (decide (index < squareSize) && decide (position < squareSize)) = false := by
        simpa using quadrant
      rw [CellTree.namespaceAt, outside]
      rfl
  · rw [List.pairwise_map]
    refine List.pairwise_lt_range.imp fun {first second} earlier => ?_
    by_cases quadrant : index < squareSize ∧ second < squareSize
    · rw [if_pos quadrant, if_pos ⟨quadrant.1, by omega⟩]
      exact ordered quadrant.1 first second earlier quadrant.2
    · rw [if_neg quadrant]
      exact Namespace.le_parity _

/-- Which share of the data stands at a position of a row or column. -/
def Axis.place (axis : Axis) (width index position : Nat) : Nat :=
  match axis with
  | .row => index * width + position
  | .column => position * width + index

/-- Later positions of a row or column are those of later shares. -/
theorem Axis.place_mono (axis : Axis) (width index : Nat) {first second : Nat}
    (before : first ≤ second) : axis.place width index first ≤ axis.place width index second := by
  cases axis with
  | row => exact Nat.add_le_add_left before _
  | column => exact Nat.add_le_add_right (Nat.mul_le_mul_right _ before) _

/-- Every share starts with a namespace, and no share stands in one below that of a share before it
in its row or in its column. -/
structure OrderedAlongAxes (width : Nat) (shares : List Share) : Prop where
  /-- Every share starts with a namespace. -/
  stands : ∀ share ∈ shares, IsNamespace share.namespaceBytes
  /-- The namespaces do not go down along a row or column. -/
  ordered : ∀ (axis : Axis) (index first second : Nat), index < width → first < second →
    second < width → Ordered.spaceAt shares (axis.place width index first) ≤
      Ordered.spaceAt shares (axis.place width index second)

/-- Shares in order are in order along every row and column. -/
theorem Ordered.alongAxes {shares : List Share} (ordered : Ordered shares) (width : Nat) :
    OrderedAlongAxes width shares where
  stands share member := Share.ns_eq_ok_space.mp (ordered.stands share member)
  ordered axis index _ _ _ before _ :=
    ordered.spaceAt_le (axis.place_mono width index (Nat.le_of_lt before))

section Trees

variable {shares : List Share} {square : ExtendedSquare}

/-- The cells of the data in a row or column are shares. -/
theorem exists_line (extended : extendShares shares = .ok square) (axis : Axis) {index : Nat}
    (inside : index < square.dataWidth) : ∃ cells, (square.lines axis)[index]? = some cells ∧
      ∀ position < square.dataWidth, cells[position]? =
        shares[axis.place square.dataWidth index position]?.map Share.bytes := by
  cases axis with
  | row =>
    obtain ⟨_, _, lines⟩ := extendShares_eq_ok.mp extended
    obtain ⟨_, _, listed⟩ := ExtendedSquare.extendedRows_entry shareSize
      (shares.map Share.bytes) inside
    rw [← lines] at listed
    refine ⟨_, listed, fun position bound => ?_⟩
    rw [Axis.place, ← dataCell_entry extended inside bound, listed, Option.bind_some]
  | column =>
    obtain ⟨cells, listed, each⟩ := getElem?_columns extended inside
    refine ⟨cells, listed, fun position bound => ?_⟩
    rw [Axis.place, ← dataCell_entry extended bound inside, each]

/-- A cell of the data in a row or column is a share. -/
theorem exists_share_of_cell (extended : extendShares shares = .ok square) {axis : Axis}
    {index position : Nat} {cells : List Bytes} {cell : Bytes}
    (member : (square.lines axis)[index]? = some cells) (inside : index < square.dataWidth)
    (bound : position < square.dataWidth) (found : cells[position]? = some cell) :
    ∃ share, shares[axis.place square.dataWidth index position]? = some share ∧
      share.bytes = cell := by
  obtain ⟨own, listed, each⟩ := exists_line extended axis inside
  obtain rfl : cells = own := Option.some.inj (member.symm.trans listed)
  rw [each position bound] at found
  exact Option.map_eq_some_iff.mp found

/-- The rows and columns of a square have trees when its shares are in order along them. -/
theorem exists_cellTrees (extended : extendShares shares = .ok square)
    (ordered : OrderedAlongAxes square.dataWidth shares) (axis : Axis) :
    ∃ trees, square.cellTrees axis = .ok trees := by
  have each : ∀ index cells, (square.lines axis)[index]? = some cells →
      ∃ tree, CellTree.ofLine square.dataWidth index cells = .ok tree := by
    intro index cells member
    refine CellTree.exists_ofLine (fun inside position bound cell found => ?_)
      fun inside first second => ordered.ordered axis index first second inside
    obtain ⟨share, listed, rfl⟩ := exists_share_of_cell extended member inside bound found
    rw [namespaceAt_share inside bound, Ordered.spaceAt, listed]
    exact Share.ns_eq_ok_space.mpr (ordered.stands share (List.mem_of_getElem? listed))
  apply exists_mapM_eq_ok
  rintro ⟨cells, index⟩ member
  exact each index cells (List.mem_zipIdx_iff_getElem?.mp member)

/-- A square whose shares are in order along its rows and columns has a header. -/
theorem OrderedAlongAxes.exists_ofShares {width : Nat} (ordered : OrderedAlongAxes width shares)
    (positive : 0 < width) (narrow : width ≤ 128) (full : shares.length = width * width) :
    ∃ header trees, AvailabilityHeader.ofShares shares = .ok (header, trees) := by
  have extended : extendShares shares = .ok ⟨width, shareSize,
      ExtendedSquare.extendedRows width shareSize (shares.map Share.bytes)⟩ :=
    extendShares_eq_ok.mpr ⟨⟨positive, narrow, full⟩, rfl, rfl⟩
  obtain ⟨rows, rowsFound⟩ := exists_cellTrees extended ordered .row
  obtain ⟨columns, columnsFound⟩ := exists_cellTrees extended ordered .column
  exact ⟨_, _, AvailabilityHeader.ofShares_eq_ok.mpr
    ⟨_, rows, columns, extended, rowsFound, columnsFound, rfl, rfl⟩⟩

/-- A square whose shares are in order has a header. -/
theorem Ordered.exists_ofShares {squareSize : Nat} (ordered : Ordered shares)
    (positive : 0 < squareSize) (narrow : squareSize ≤ 128)
    (full : shares.length = squareSize * squareSize) :
    ∃ header trees, AvailabilityHeader.ofShares shares = .ok (header, trees) :=
  (ordered.alongAxes squareSize).exists_ofShares positive narrow full

end Trees

/-- The root of a row or column reports the range of the namespaces in which its cells stand. -/
theorem CellTree.reports_of_ofLine {squareSize index : Nat} {strip : List Bytes}
    {tree : NamespacedTree} (grown : CellTree.ofLine squareSize index strip = .ok tree)
    (nonempty : strip ≠ []) : ∃ namespaces,
      CellTree.namespacesFrom squareSize index 0 strip = .ok namespaces ∧
        Reports tree.root namespaces := by
  obtain ⟨namespaces, found, ordered, rfl⟩ := CellTree.ofLine_eq_ok.mp grown
  have length := (CellTree.namespacesFrom_eq_ok.mp found).1
  refine ⟨namespaces, found, ?_⟩
  have reports := (inOrder_zipWith ordered length).reports_root
    (List.length_pos_iff.mp (by
      rw [List.length_zipWith, length, Nat.min_self]
      exact List.length_pos_iff.mpr nonempty))
  rw [map_min_zipWith length] at reports
  exact reports

/-- The root of a row or column reports the namespace of its first cell. -/
theorem CellTree.min_root_of_ofLine {squareSize index : Nat} {strip : List Bytes}
    {tree : NamespacedTree} {cell : Bytes} {ns : Namespace}
    (grown : CellTree.ofLine squareSize index strip = .ok tree) (first : strip[0]? = some cell)
    (stands : CellTree.namespaceAt squareSize index 0 cell = .ok ns) : tree.root.min = ns := by
  have nonempty : strip ≠ [] := by
    rintro rfl
    contradiction
  obtain ⟨namespaces, found, reports⟩ := CellTree.reports_of_ofLine grown nonempty
  obtain ⟨own, listed, same⟩ := (CellTree.namespacesFrom_eq_ok.mp found).2 0 cell first
  obtain rfl : ns = own := Except.ok.inj (stands.symm.trans same)
  rw [← List.head?_eq_getElem?, reports.first] at listed
  exact Option.some.inj listed

/-- The root of a row reports the namespace of its first share, or parity below the data. -/
theorem min_root_of_rowTree {shares : List Share} {square : ExtendedSquare}
    {rows : List NamespacedTree} (extended : extendShares shares = .ok square)
    (found : square.cellTrees .row = .ok rows) (ordered : Ordered shares) {row : Nat}
    {tree : NamespacedTree} (entry : rows[row]? = some tree) :
    tree.root.min = if row < square.dataWidth then
      Ordered.spaceAt shares (row * square.dataWidth) else Namespace.parity := by
  obtain ⟨⟨positive, _, full⟩, _, lines⟩ := extendShares_eq_ok.mp extended
  obtain ⟨length, each⟩ := ExtendedSquare.cellTrees_eq_ok.mp found
  obtain ⟨inside, _⟩ := List.getElem?_eq_some_iff.mp entry
  obtain ⟨strip, cells⟩ : ∃ strip, square.rows[row]? = some strip :=
    ⟨_, List.getElem?_eq_getElem (length ▸ inside)⟩
  obtain ⟨own, listed, grown⟩ := each row _ cells
  obtain rfl : tree = own := Option.some.inj (entry.symm.trans listed)
  have wide : strip.length = 2 * square.dataWidth := by
    have member := List.mem_of_getElem? cells
    rw [lines] at member
    exact ExtendedSquare.length_of_mem_extendedRows (by rwa [List.length_map]) member
  have first := List.getElem?_eq_getElem (by omega : 0 < strip.length)
  refine CellTree.min_root_of_ofLine grown first ?_
  by_cases data : row < square.dataWidth
  · rw [if_pos data]
    have cell := dataCell_entry extended data positive
    rw [cells, Option.bind_some, first, Nat.add_zero] at cell
    obtain ⟨share, stands, bytes⟩ := Option.map_eq_some_iff.mp cell.symm
    rw [← bytes, namespaceAt_share data positive, Ordered.spaceAt, stands]
    exact ordered.stands share (List.mem_of_getElem? stands)
  · rw [if_neg data, CellTree.namespaceAt, decide_eq_false data]
    rfl

/-- The root of a row of the data starts where no other row does, when the rows of the data start in
namespaces that go up. -/
theorem Ordered.index_eq_of_min_root {shares : List Share} {square : ExtendedSquare}
    {rows : List NamespacedTree} (extended : extendShares shares = .ok square)
    (found : square.cellTrees .row = .ok rows) (ordered : Ordered shares)
    (increasing : ∀ row < square.dataWidth, ∀ other < row,
      spaceAt shares (other * square.dataWidth) < spaceAt shares (row * square.dataWidth))
    (data : ∀ row < square.dataWidth, spaceAt shares (row * square.dataWidth) < Namespace.parity)
    {row index : Nat} (inside : row < square.dataWidth) {tree own : NamespacedTree}
    (entry : rows[row]? = some tree) (other : rows[index]? = some own)
    (same : tree.root.min = own.root.min) : index = row := by
  rw [min_root_of_rowTree extended found ordered entry,
    min_root_of_rowTree extended found ordered other, if_pos inside] at same
  rcases Nat.lt_trichotomy index row with before | equal | after
  · rw [if_pos (show index < square.dataWidth by omega)] at same
    exact absurd same.symm (Namespace.ne_of_lt (increasing row inside index before))
  · exact equal
  · by_cases below : index < square.dataWidth
    · rw [if_pos below] at same
      exact absurd same (Namespace.ne_of_lt (increasing index below row after))
    · rw [if_neg below] at same
      exact absurd same (Namespace.ne_of_lt (data row inside))

/-- Rows of the data are clear when they start in namespaces that go up. -/
theorem Ordered.clear_of_increasing {shares : List Share} {header : AvailabilityHeader}
    {trees : RowTrees} (ordered : Ordered shares)
    (built : AvailabilityHeader.ofShares shares = .ok (header, trees))
    (increasing : ∀ row < header.squareSize, ∀ other < row,
      spaceAt shares (other * header.squareSize) < spaceAt shares (row * header.squareSize))
    (data : ∀ row < header.squareSize,
      spaceAt shares (row * header.squareSize) < Namespace.parity) : trees.Clear header := by
  obtain ⟨square, rows, columns, extended, found, _, rfl, rfl⟩ :=
    AvailabilityHeader.ofShares_eq_ok.mp built
  have width := squareSize_of_rowTrees extended found (columns.map NamespacedTree.root)
  rw [width] at increasing data
  intro row inside root listed
  rw [width] at inside
  change (rows.map NamespacedTree.root)[row]? = _ at listed
  obtain ⟨rowTree, rowEntry, roots⟩ :=
    Option.map_eq_some_iff.mp (List.getElem?_map.symm.trans listed)
  -- Only the row itself starts in its namespace.
  have unique : ∀ tree, (root, tree) ∈ (RowTrees.ofTrees rows).entries → rowTree = tree := by
    intro tree member
    obtain ⟨own, place, same⟩ := List.mem_map.mp member
    obtain ⟨rfl, rfl⟩ := Prod.mk.inj same
    obtain ⟨index, entry⟩ := List.mem_iff_getElem?.mp place
    obtain rfl := ordered.index_eq_of_min_root extended found increasing data inside rowEntry entry
      (congrArg NamespacedHash.min roots)
    exact Option.some.inj (rowEntry.symm.trans entry)
  intro one other memOne memOther
  rw [← unique one memOne, ← unique other memOther]

/-- The rows of a square of width two are clear when the second one starts in a higher namespace. -/
theorem Ordered.clear_of_two_rows {shares : List Share} {header : AvailabilityHeader}
    {trees : RowTrees} (ordered : Ordered shares)
    (built : AvailabilityHeader.ofShares shares = .ok (header, trees))
    (width : header.squareSize = 2) (increasing : spaceAt shares 0 < spaceAt shares 2)
    (data : spaceAt shares 2 < Namespace.parity) : trees.Clear header := by
  have rows : ∀ row < 2, row = 0 ∨ row = 1 := by omega
  apply ordered.clear_of_increasing built
  · intro row inside other before
    rw [width] at inside ⊢
    rcases rows row inside with rfl | rfl
    · omega
    · obtain rfl : other = 0 := by omega
      exact increasing
  · intro row inside
    rw [width] at inside ⊢
    rcases rows row inside with rfl | rfl
    · exact Namespace.lt_of_lt_of_le increasing (Namespace.le_of_lt data)
    · exact data

end DataSquare
