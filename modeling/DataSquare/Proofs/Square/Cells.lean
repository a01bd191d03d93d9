import DataSquare.Proofs.Square.Binding

/-!
# Cells of the extended square

Every leaf of a row tree is the hash of a cell in the namespace in which it stands. In the data
quadrant the cell is a share in its own namespace, and everywhere else it stands in that of parity.
So data in another namespace than that of parity can only be proven to stand in the data quadrant.
-/
namespace DataSquare

open Merkle

/-- What is hashed for the leaf of a cell. A cell that stands in no namespace counts as parity. -/
def CellTree.cellMessage (squareSize index position : Nat) (cell : Bytes) : Bytes :=
  NamespacedHash.leafMessage
    ((namespaceAt squareSize index position cell).toOption.getD Namespace.parity) cell

/-- What is hashed for the leaves of all rows of an extended square. -/
def ExtendedSquare.cellMessages (square : ExtendedSquare) : List Bytes :=
  square.rows.zipIdx.flatMap fun (cells, index) => cells.zipIdx.map fun (cell, position) =>
    CellTree.cellMessage square.dataWidth index position cell

/-- What is hashed for the leaves of all rows of the square that shares make up. -/
def Square.cellMessages (shares : List Share) : List Bytes :=
  match extendShares shares with
  | .error _ => []
  | .ok square => square.cellMessages

/-- What stands in a cell of a row in a namespace: in the data quadrant the share that stands there
in its own namespace, and otherwise parity. -/
structure StandsInCell (shares : List Share) (squareSize row position : Nat) (ns : Namespace)
    (cell : Bytes) : Prop where
  /-- In the data quadrant the cell is a share in its namespace. -/
  data : row < squareSize → position < squareSize → ∃ share,
    shares[row * squareSize + position]? = some share ∧ share.bytes = cell ∧ share.ns = .ok ns
  /-- Outside of it the namespace is that of parity. -/
  parity : ¬ (row < squareSize ∧ position < squareSize) → ns = Namespace.parity

/-- A leaf of a row tree is the hash of what stands in its cell. -/
theorem exists_cell_of_rowTree {shares : List Share} {square : ExtendedSquare}
    {rows : List NamespacedTree} (extended : extendShares shares = .ok square)
    (found : square.cellTrees .row = .ok rows) {row : Nat} {tree : NamespacedTree}
    (entry : rows[row]? = some tree) {position : Nat} {hash : NamespacedHash}
    (leaf : tree.leaves[position]? = some hash) : ∃ ns cell,
    hash = NamespacedHash.leaf ns cell ∧
      NamespacedHash.leafMessage ns cell ∈ square.cellMessages ∧
      StandsInCell shares square.dataWidth row position ns cell := by
  obtain ⟨length, each⟩ := ExtendedSquare.cellTrees_eq_ok.mp found
  obtain ⟨inside, _⟩ := List.getElem?_eq_some_iff.mp entry
  obtain ⟨line, cells⟩ : ∃ line, square.rows[row]? = some line :=
    ⟨_, List.getElem?_eq_getElem (length ▸ inside)⟩
  obtain ⟨own, listed, grown⟩ := each row line cells
  obtain rfl : tree = own := Option.some.inj (entry.symm.trans listed)
  obtain ⟨namespaces, standing, _, rfl⟩ := CellTree.ofLine_eq_ok.mp grown
  obtain ⟨ns, cell, named, filled, rfl⟩ :=
    List.getElem?_zipWith_eq_some.mp leaf
  obtain ⟨other, again, stands⟩ :=
    (CellTree.namespacesFrom_eq_ok.mp standing).2 position cell filled
  obtain rfl : ns = other := Option.some.inj (named.symm.trans again)
  rw [Nat.zero_add] at stands
  refine ⟨ns, cell, rfl, ?hashed, ?data, ?parity⟩
  case hashed =>
    have lineMember : (line, row) ∈ square.rows.zipIdx := List.mem_zipIdx_iff_getElem?.mpr cells
    have cellMember : (cell, position) ∈ line.zipIdx := List.mem_zipIdx_iff_getElem?.mpr filled
    refine List.mem_flatMap.mpr ⟨_, lineMember, List.mem_map.mpr ⟨_, cellMember, ?_⟩⟩
    simp only [CellTree.cellMessage, stands]
    rfl
  case data =>
    intro rowInside columnInside
    have share := dataCell_entry extended rowInside columnInside
    rw [cells, Option.bind_some] at share
    obtain ⟨own, atPlace, bytes⟩ := Option.map_eq_some_iff.mp (share.symm.trans filled)
    refine ⟨own, atPlace, bytes, ?_⟩
    rw [← bytes] at stands
    exact (namespaceAt_share rowInside columnInside).mp stands
  case parity =>
    intro outside
    have away : (decide (row < square.dataWidth) && decide (position < square.dataWidth)) =
        false := by simpa using outside
    rw [CellTree.namespaceAt, away] at stands
    exact (Except.ok.inj stands).symm

/-- A tree over a row of the extended square. -/
structure RowOf (shares : List Share) (header : AvailabilityHeader) (row : Nat)
    (tree : NamespacedTree) : Prop where
  /-- Its root is in the header. -/
  root : header.rowRoots[row]? = some tree.root
  /-- It is as wide as the extended square. -/
  length : tree.leaves.length = 2 * header.squareSize
  /-- The messages of its nodes are hashed for the header. -/
  messages : namespacedMessages tree.leaves ⊆ Square.headerMessages shares
  /-- Its leaves are the hashes of what stands in their cells. -/
  leaves : ∀ (position : Nat) (hash : NamespacedHash), tree.leaves[position]? = some hash →
    ∃ ns cell, hash = NamespacedHash.leaf ns cell ∧
      NamespacedHash.leafMessage ns cell ∈ Square.cellMessages shares ∧
      StandsInCell shares header.squareSize row position ns cell

/-- Every row of the extended square has a tree. -/
theorem exists_rowOf {shares : List Share} {header : AvailabilityHeader} {trees : RowTrees}
    (built : AvailabilityHeader.ofShares shares = .ok (header, trees)) {row : Nat}
    (inside : row < 2 * header.squareSize) : ∃ tree, RowOf shares header row tree := by
  have hashed := Square.headerMessages_of_ofShares built
  rw [Square.rowMessages_of_ofShares built] at hashed
  obtain ⟨square, rows, columns, extended, found, _, rfl, rfl⟩ :=
    AvailabilityHeader.ofShares_eq_ok.mp built
  have width := squareSize_of_rowTrees extended found (columns.map NamespacedTree.root)
  rw [width] at inside
  obtain ⟨tree, entry⟩ : ∃ tree, rows[row]? = some tree :=
    ⟨_, List.getElem?_eq_getElem (length_rowTrees extended found ▸ inside)⟩
  have member := List.mem_of_getElem? entry
  refine ⟨tree, ?root, ?length, ?messages, ?leaves⟩
  case root =>
    rw [List.getElem?_map, entry]
    rfl
  case length =>
    rw [width]
    exact length_leaves_of_mem_rowTrees extended found member
  case messages =>
    intro message listed
    rw [hashed]
    exact List.mem_append_left _ (List.mem_append_right _
      (List.mem_flatMap.mpr ⟨_, List.mem_map_of_mem member, listed⟩))
  case leaves =>
    intro position hash leaf
    rw [width, Square.cellMessages, extended]
    exact exists_cell_of_rowTree extended found entry leaf

/-- In the data quadrant the leaves over shares of one namespace are the hashes of the shares in
it. -/
theorem RowOf.leaves_of_named {shares : List Share} {header : AvailabilityHeader} {row : Nat}
    {tree : NamespacedTree} (own : RowOf shares header row tree)
    (inside : row < header.squareSize) {ns : Namespace} {start stop : Nat}
    (bound : stop ≤ header.squareSize)
    (named : ∀ (position : Nat) (share : Share), start ≤ position → position < stop →
      shares[row * header.squareSize + position]? = some share → share.ns = .ok ns) :
    (tree.leaves.drop start).take (stop - start) =
      (((shares.drop (row * header.squareSize + start)).take (stop - start)).map
        Share.bytes).map (NamespacedHash.leaf ns) := by
  have length := own.length
  apply List.ext_getElem?
  intro offset
  rcases Nat.lt_or_ge offset (stop - start) with within | outside
  · obtain ⟨hash, entry⟩ : ∃ hash, tree.leaves[start + offset]? = some hash :=
      ⟨_, List.getElem?_eq_getElem (by omega)⟩
    obtain ⟨other, cell, rfl, _, stands⟩ := own.leaves _ hash entry
    obtain ⟨share, found, rfl, space⟩ := stands.data inside (by omega)
    obtain rfl : other = ns := Except.ok.inj
      (space.symm.trans (named _ share (Nat.le_add_right _ _) (by omega) found))
    rw [List.getElem?_take_of_lt within, List.getElem?_drop, entry, List.getElem?_map,
      List.getElem?_map, List.getElem?_take_of_lt within, List.getElem?_drop, Nat.add_assoc,
      found]
    rfl
  · rw [List.getElem?_take_eq_none outside, List.getElem?_map, List.getElem?_map,
      List.getElem?_take_eq_none outside]
    rfl

end DataSquare
