import DataSquare.Proofs.Erasure.Shape
import DataSquare.Proofs.Merkle.Messages
import DataSquare.Proofs.Square.CellTree
import DataSquare.Square.Header

/-!
# Headers and the trees of their rows

The header of a square is made of one tree for each row and column of its extension. All trees of
rows have as many leaves, and the first half of the leaves above the parity are the shares of the
row. The trees are found again by their roots, so a tree that is found is the one that is looked
for unless two rows with different leaves have one root.
-/
namespace DataSquare

open Merkle

/-- The namespace of a share. One that starts with no namespace counts as parity. -/
def Share.space (share : Share) : Namespace := share.ns.toOption.getD Namespace.parity

/-- The leaf that a share is in the trees of its row and column. -/
def Share.node (share : Share) : NamespacedHash :=
  NamespacedHash.leaf share.space share.bytes

/-- The namespace of a share that starts with one. -/
theorem Share.space_of_ns {share : Share} {ns : Namespace} (stands : share.ns = .ok ns) :
    share.space = ns := by
  simp [Share.space, stands, Except.toOption]

/-- A share stands in its namespace exactly when it starts with one. -/
theorem Share.ns_eq_ok_space {share : Share} :
    share.ns = .ok share.space ↔ IsNamespace share.namespaceBytes := by
  constructor
  · intro stands
    rw [← Namespace.bytes_of_ofBytes stands]
    exact share.space.valid
  · intro valid
    have stands : share.ns = .ok ⟨share.namespaceBytes, valid⟩ :=
      Namespace.ofBytes_bytes ⟨share.namespaceBytes, valid⟩
    rw [Share.space_of_ns stands]
    exact stands

/-- The leaf of a share in a namespace. -/
theorem Share.node_of_ns {share : Share} {ns : Namespace} (stands : share.ns = .ok ns) :
    share.node = NamespacedHash.leaf ns share.bytes := by
  rw [Share.node, Share.space_of_ns stands]

/-- Shares are extended exactly when they make a square that the code takes. -/
theorem extendShares_eq_ok {shares : List Share} {square : ExtendedSquare} :
    extendShares shares = .ok square ↔
      (0 < square.dataWidth ∧ square.dataWidth ≤ 128 ∧
        shares.length = square.dataWidth * square.dataWidth) ∧
      square.chunkSize = shareSize ∧
      square.rows = ExtendedSquare.extendedRows square.dataWidth shareSize
        (shares.map Share.bytes) := by
  rw [extendShares, ExtendedSquare.compute_eq_ok]
  simp only [List.length_map, List.forall_mem_map, Share.length_eq]
  constructor
  · rintro ⟨⟨nonempty, taken, full⟩, ⟨positive, even⟩, rows⟩
    have size : square.chunkSize = shareSize := by
      have filled : 0 < shares.length := full ▸ Nat.mul_pos nonempty nonempty
      exact (even _ (List.getElem_mem filled)).symm
    exact ⟨⟨nonempty, taken, full⟩, size, size ▸ rows⟩
  · rintro ⟨whole, size, rows⟩
    exact ⟨whole, ⟨by rw [size]; decide, fun _ _ => size.symm⟩, size.symm ▸ rows⟩

namespace AvailabilityHeader

/-- A header consists of the roots of the trees of all rows and columns. -/
theorem ofShares_eq_ok {shares : List Share} {header : AvailabilityHeader} {trees : RowTrees} :
    ofShares shares = .ok (header, trees) ↔ ∃ square rows columns,
      extendShares shares = .ok square ∧ square.cellTrees .row = .ok rows ∧
        square.cellTrees .column = .ok columns ∧
        header = ⟨rows.map NamespacedTree.root, columns.map NamespacedTree.root⟩ ∧
        trees = .ofTrees rows := by
  unfold ofShares
  cases extendShares shares with
  | error cause => simp
  | ok square =>
    simp only [mapError_eq_ok, withTrees, Except.ok.injEq, exists_eq_left', exists_and_left]
    cases square.cellTrees .row with
    | error cause => simp
    | ok rows =>
      cases square.cellTrees .column with
      | error cause => simp
      | ok columns => simp [eq_comm]

end AvailabilityHeader

/-- There is a tree for each row or column, over its cells. -/
theorem ExtendedSquare.cellTrees_eq_ok {square : ExtendedSquare} {axis : Axis}
    {trees : List NamespacedTree} :
    square.cellTrees axis = .ok trees ↔ trees.length = (square.lines axis).length ∧
      ∀ index cells, (square.lines axis)[index]? = some cells → ∃ tree,
        trees[index]? = some tree ∧ CellTree.ofLine square.dataWidth index cells = .ok tree := by
  rw [ExtendedSquare.cellTrees, mapM_zipIdx_eq_ok]

section Rows

variable {shares : List Share} {square : ExtendedSquare} {rows : List NamespacedTree}

/-- A cell of the data quadrant is the share in its row and column. -/
theorem dataCell_entry (extended : extendShares shares = .ok square) {row column : Nat}
    (rowInside : row < square.dataWidth) (columnInside : column < square.dataWidth) :
    square.rows[row]?.bind (·[column]?) =
      shares[row * square.dataWidth + column]?.map Share.bytes := by
  obtain ⟨⟨_, _, full⟩, _, lines⟩ := extendShares_eq_ok.mp extended
  obtain ⟨parity, _, cells⟩ := ExtendedSquare.extendedRows_entry shareSize
    (shares.map Share.bytes) rowInside
  have room : (row + 1) * square.dataWidth ≤ square.dataWidth * square.dataWidth :=
    Nat.mul_le_mul_right _ rowInside
  rw [Nat.add_mul, Nat.one_mul] at room
  have front : column < (((shares.map Share.bytes).drop (row * square.dataWidth)).take
      square.dataWidth).length := by
    simp only [List.length_take, List.length_drop, List.length_map, full]
    omega
  rw [lines, cells, Option.bind_some, List.getElem?_append_left front,
    List.getElem?_take_of_lt columnInside, List.getElem?_drop, List.getElem?_map]

/-- A cell of a column is the cell of a row. -/
theorem getElem?_columns (extended : extendShares shares = .ok square) {column : Nat}
    (inside : column < square.dataWidth) : ∃ cells, square.columns[column]? = some cells ∧
      ∀ row : Nat, cells[row]? = square.rows[row]?.bind (·[column]?) := by
  obtain ⟨⟨_, _, full⟩, _, lines⟩ := extendShares_eq_ok.mp extended
  have even : ∀ row ∈ square.rows, row.length = 2 * square.dataWidth := by
    rw [lines]
    exact fun row => ExtendedSquare.length_of_mem_extendedRows (by rwa [List.length_map])
  have wide : column < 2 * square.dataWidth := by omega
  exact ⟨_, ExtendedSquare.columnsOf_entry wide even,
    ExtendedSquare.getElem?_filterMap_entry wide even⟩

/-- There is a tree for each of the rows after extension. -/
theorem length_rowTrees (extended : extendShares shares = .ok square)
    (found : square.cellTrees .row = .ok rows) : rows.length = 2 * square.dataWidth := by
  obtain ⟨_, _, lines⟩ := extendShares_eq_ok.mp extended
  rw [(ExtendedSquare.cellTrees_eq_ok.mp found).1, ExtendedSquare.lines, lines,
    ExtendedSquare.length_extendedRows]

/-- The header of an extended square tells the width of the data. -/
theorem squareSize_of_rowTrees (extended : extendShares shares = .ok square)
    (found : square.cellTrees .row = .ok rows) (columnRoots : List NamespacedHash) :
    (⟨rows.map NamespacedTree.root, columnRoots⟩ : AvailabilityHeader).squareSize =
      square.dataWidth := by
  rw [AvailabilityHeader.squareSize, List.length_map, length_rowTrees extended found]
  omega

/-- The tree of a row has a leaf for each of its cells after extension. -/
theorem length_leaves_of_mem_rowTrees (extended : extendShares shares = .ok square)
    (found : square.cellTrees .row = .ok rows) {tree : NamespacedTree} (member : tree ∈ rows) :
    tree.leaves.length = 2 * square.dataWidth := by
  obtain ⟨⟨_, _, full⟩, _, lines⟩ := extendShares_eq_ok.mp extended
  obtain ⟨length, each⟩ := ExtendedSquare.cellTrees_eq_ok.mp found
  obtain ⟨index, inside, rfl⟩ := List.mem_iff_getElem.mp member
  obtain ⟨tree, entry, grown⟩ := each index _ (List.getElem?_eq_getElem (by omega))
  obtain ⟨_, rfl⟩ := List.getElem?_eq_some_iff.mp entry
  obtain ⟨namespaces, standing, _, leaves⟩ := CellTree.ofLine_eq_ok.mp grown
  have many := (CellTree.namespacesFrom_eq_ok.mp standing).1
  rw [leaves, List.length_zipWith, many, Nat.min_self]
  have rowsFull : (shares.map Share.bytes).length = square.dataWidth * square.dataWidth := by
    rwa [List.length_map]
  apply ExtendedSquare.length_of_mem_extendedRows rowsFull
  rw [← lines]
  exact List.getElem_mem _

/-- The cell of a share stands in the namespace of the share. -/
theorem namespaceAt_share {squareSize index position : Nat} {share : Share} {ns : Namespace}
    (row : index < squareSize) (column : position < squareSize) :
    CellTree.namespaceAt squareSize index position share.bytes = .ok ns ↔ share.ns = .ok ns := by
  have long : ¬ share.bytes.length < 29 := by
    rw [share.length_eq]
    decide
  simp only [CellTree.namespaceAt, cellNamespace, row, column, decide_true, Bool.and_self,
    if_true, if_neg long, mapError_eq_ok]
  rfl

/-- The leaves of a row of the data are its shares, and then its parity. -/
theorem rowTree_entry (extended : extendShares shares = .ok square)
    (found : square.cellTrees .row = .ok rows) {row : Nat} (inside : row < square.dataWidth) :
    ∃ tree, rows[row]? = some tree ∧ tree.leaves.take square.dataWidth =
      ((shares.map Share.node).drop (row * square.dataWidth)).take square.dataWidth := by
  obtain ⟨⟨_, _, full⟩, _, lines⟩ := extendShares_eq_ok.mp extended
  obtain ⟨_, each⟩ := ExtendedSquare.cellTrees_eq_ok.mp found
  obtain ⟨parity, _, cells⟩ := ExtendedSquare.extendedRows_entry shareSize
    (shares.map Share.bytes) inside
  rw [← lines] at cells
  obtain ⟨tree, entry, grown⟩ := each row _ cells
  refine ⟨tree, entry, ?_⟩
  obtain ⟨namespaces, standing, _, rfl⟩ := CellTree.ofLine_eq_ok.mp grown
  obtain ⟨_, stands⟩ := CellTree.namespacesFrom_eq_ok.mp standing
  have room : (row + 1) * square.dataWidth ≤ square.dataWidth * square.dataWidth :=
    Nat.mul_le_mul_right _ inside
  rw [Nat.add_mul, Nat.one_mul] at room
  apply List.ext_getElem?
  intro column
  rcases Nat.lt_or_ge column square.dataWidth with bound | outside
  · obtain ⟨share, listed⟩ : ∃ share, shares[row * square.dataWidth + column]? = some share :=
      ⟨_, List.getElem?_eq_getElem (by omega)⟩
    have cell := dataCell_entry extended inside bound
    rw [cells, Option.bind_some, listed, Option.map_some] at cell
    obtain ⟨ns, named, own⟩ := stands column _ cell
    rw [Nat.zero_add, namespaceAt_share inside bound] at own
    rw [List.getElem?_take_of_lt bound, List.getElem?_take_of_lt bound, List.getElem?_zipWith,
      named, cell, List.getElem?_drop, List.getElem?_map, listed, Option.map_some,
      Share.node_of_ns own]
  · rw [List.getElem?_take_eq_none outside, List.getElem?_take_eq_none outside]

end Rows

namespace RowTrees

/-- Two rows with different leaves have one root. -/
def Ambiguous (trees : RowTrees) : Prop :=
  ∃ one ∈ trees.entries, ∃ other ∈ trees.entries, one.1 = other.1 ∧ one.2 ≠ other.2

/-- The root of each row of the data stands over one tree only. -/
def Clear (trees : RowTrees) (header : AvailabilityHeader) : Prop :=
  ∀ row < header.squareSize, ∀ root, header.rowRoots[row]? = some root →
    ∀ one other, (root, one) ∈ trees.entries → (root, other) ∈ trees.entries → one = other

/-- Rows are clear when none are taken for one another. -/
theorem clear_of_not_ambiguous {trees : RowTrees} (header : AvailabilityHeader)
    (unambiguous : ¬ trees.Ambiguous) : trees.Clear header := by
  intro row _ root _ one other memOne memOther
  by_contra distinct
  exact unambiguous ⟨_, memOne, _, memOther, rfl, distinct⟩

/-- Some tree with the root is found when there is one. -/
theorem exists_find? {trees : RowTrees} {root : NamespacedHash} {tree : NamespacedTree}
    (member : (root, tree) ∈ trees.entries) :
    ∃ found, (root, found) ∈ trees.entries ∧ trees.find? root = some found := by
  have present : (trees.entries.reverse.find? fun entry => entry.1 = root).isSome := by
    rw [List.find?_isSome]
    exact ⟨(root, tree), List.mem_reverse.mpr member, by simp⟩
  obtain ⟨⟨other, found⟩, entry⟩ := Option.isSome_iff_exists.mp present
  obtain rfl : other = root := by simpa using List.find?_some entry
  have listed := List.mem_reverse.mp (List.mem_of_find?_eq_some entry)
  exact ⟨found, listed, by rw [find?, entry]; rfl⟩

/-- What is hashed for the nodes of the trees above their leaves. -/
def messages (trees : RowTrees) : List Bytes :=
  trees.entries.flatMap fun entry => namespacedMessages entry.2.leaves

/-- Rows of one length that are ambiguous make messages collide. -/
theorem collision_of_ambiguous {trees : RowTrees} {width : Nat}
    (rooted : ∀ entry ∈ trees.entries, entry.2.root = entry.1)
    (even : ∀ entry ∈ trees.entries, entry.2.leaves.length = width)
    (ambiguous : trees.Ambiguous) : Sha256.Collision trees.messages := by
  rcases Sha256.collisionFree_or_collision trees.messages with free | found
  · obtain ⟨one, memOne, other, memOther, roots, distinct⟩ := ambiguous
    refine absurd ?_ distinct
    have leaves := leaves_eq_of_namespacedRoot_eq
      ((even one memOne).trans (even other memOther).symm)
      (free.mono (List.append_subset.mpr
        ⟨fun _ hashed => List.mem_flatMap.mpr ⟨one, memOne, hashed⟩,
          fun _ hashed => List.mem_flatMap.mpr ⟨other, memOther, hashed⟩⟩))
      ((rooted one memOne).trans (roots.trans (rooted other memOther).symm))
    exact congrArg NamespacedTree.mk leaves
  · exact found

end RowTrees

section Header

variable {shares : List Share} {header : AvailabilityHeader} {trees : RowTrees}

/-- The header of a square tells its width. -/
theorem AvailabilityHeader.length_of_ofShares
    (built : AvailabilityHeader.ofShares shares = .ok (header, trees)) :
    0 < header.squareSize ∧ header.squareSize ≤ 128 ∧
      shares.length = header.squareSize * header.squareSize := by
  obtain ⟨square, rows, columns, extended, found, _, rfl, rfl⟩ :=
    AvailabilityHeader.ofShares_eq_ok.mp built
  rw [squareSize_of_rowTrees extended found]
  exact (extendShares_eq_ok.mp extended).1

/-- The header of a square of some width tells that width. -/
theorem AvailabilityHeader.squareSize_of_ofShares
    (built : AvailabilityHeader.ofShares shares = .ok (header, trees)) {squareSize : Nat}
    (full : shares.length = squareSize * squareSize) : header.squareSize = squareSize :=
  Nat.mul_self_inj.mp ((AvailabilityHeader.length_of_ofShares built).2.2.symm.trans full)

/-- The trees of a square stand under their roots and have as many leaves as the extended square is
wide. -/
theorem rooted_of_ofShares (built : AvailabilityHeader.ofShares shares = .ok (header, trees))
    {root : NamespacedHash} {tree : NamespacedTree} (member : (root, tree) ∈ trees.entries) :
    tree.root = root ∧ tree.leaves.length = 2 * header.squareSize := by
  obtain ⟨square, rows, columns, extended, found, _, rfl, rfl⟩ :=
    AvailabilityHeader.ofShares_eq_ok.mp built
  obtain ⟨own, inside, same⟩ := List.mem_map.mp member
  obtain ⟨rfl, rfl⟩ := Prod.mk.inj same
  refine ⟨rfl, ?_⟩
  rw [length_leaves_of_mem_rowTrees extended found inside, squareSize_of_rowTrees extended found]

/-- Every row of the data has a tree under its root. -/
theorem rowTree_of_ofShares (built : AvailabilityHeader.ofShares shares = .ok (header, trees))
    {row : Nat} (inside : row < header.squareSize) :
    ∃ root tree, (root, tree) ∈ trees.entries ∧ header.rowRoots[row]? = some root ∧
      tree.leaves.take header.squareSize =
        ((shares.map Share.node).drop (row * header.squareSize)).take header.squareSize := by
  obtain ⟨square, rows, columns, extended, found, _, rfl, rfl⟩ :=
    AvailabilityHeader.ofShares_eq_ok.mp built
  rw [squareSize_of_rowTrees extended found] at inside ⊢
  obtain ⟨tree, entry, leaves⟩ := rowTree_entry extended found inside
  refine ⟨tree.root, tree, List.mem_map_of_mem (List.mem_of_getElem? entry), ?_, leaves⟩
  rw [List.getElem?_map, entry]
  rfl

/-- Rows of a square that are ambiguous make messages collide that are hashed for them. -/
theorem collision_of_ambiguous_rows
    (built : AvailabilityHeader.ofShares shares = .ok (header, trees))
    (ambiguous : trees.Ambiguous) : Sha256.Collision trees.messages :=
  RowTrees.collision_of_ambiguous
    (fun _ member => (rooted_of_ofShares built member).1)
    (fun _ member => (rooted_of_ofShares built member).2) ambiguous

end Header

end DataSquare
