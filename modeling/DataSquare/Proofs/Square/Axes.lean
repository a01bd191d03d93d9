import DataSquare.Proofs.Square.Binding
import DataSquare.Proofs.Share.Parts

/-!
# Order along rows and columns

Parity stands behind all namespaces and the cells that the code adds stand in it, whatever bytes
they hold. So of all trees over the extended square only those that cross the data can refuse a
cell: a square has a header exactly when its shares start with namespaces that do not go down along
any row or column. Their order as a whole, row by row, does not matter.
-/
namespace DataSquare

open Merkle

variable {shares : List Share} {square : ExtendedSquare}

/-- The places of the data are those of a square number of shares. -/
theorem Axis.place_lt (axis : Axis) {width index position : Nat} (inside : index < width)
    (bound : position < width) : axis.place width index position < width * width := by
  have room (row column : Nat) (rowInside : row < width) (columnInside : column < width) :
      row * width + column < width * width := by
    have last : (row + 1) * width ≤ width * width := Nat.mul_le_mul_right width rowInside
    rw [Nat.add_mul, Nat.one_mul] at last
    omega
  cases axis with
  | row => exact room index position inside bound
  | column => exact room position index bound inside

/-- The shares in a row or column that has a tree start with namespaces in order. -/
theorem exists_namespaces_of_cellTrees (extended : extendShares shares = .ok square) {axis : Axis}
    {trees : List NamespacedTree} (found : square.cellTrees axis = .ok trees) {index : Nat}
    (inside : index < square.dataWidth) : ∃ namespaces : List Namespace,
      namespaces.Pairwise (· ≤ ·) ∧ ∀ position < square.dataWidth, ∃ share ns,
        shares[axis.place square.dataWidth index position]? = some share ∧
          namespaces[position]? = some ns ∧ share.ns = .ok ns := by
  obtain ⟨⟨_, _, full⟩, _, _⟩ := extendShares_eq_ok.mp extended
  obtain ⟨cells, listed, each⟩ := exists_line extended axis inside
  obtain ⟨tree, _, grown⟩ := (ExtendedSquare.cellTrees_eq_ok.mp found).2 index cells listed
  obtain ⟨namespaces, standing, ordered, _⟩ := CellTree.ofLine_eq_ok.mp grown
  refine ⟨namespaces, ordered, fun position bound => ?_⟩
  have place := full ▸ axis.place_lt inside bound
  have cell := each position bound
  rw [List.getElem?_eq_getElem place, Option.map_some] at cell
  obtain ⟨ns, named, own⟩ := (CellTree.namespacesFrom_eq_ok.mp standing).2 position _ cell
  rw [Nat.zero_add] at own
  exact ⟨_, ns, List.getElem?_eq_getElem place, named, (namespaceAt_share inside bound).mp own⟩

/-- The shares of a square whose rows and columns have trees are in order along them. -/
theorem orderedAlongAxes_of_cellTrees (extended : extendShares shares = .ok square)
    (found : ∀ axis, ∃ trees, square.cellTrees axis = .ok trees) :
    OrderedAlongAxes square.dataWidth shares where
  stands share member := by
    obtain ⟨⟨nonempty, _, full⟩, _, _⟩ := extendShares_eq_ok.mp extended
    obtain ⟨trees, rows⟩ := found .row
    obtain ⟨place, inside, rfl⟩ := List.mem_iff_getElem.mp member
    have row : place / square.dataWidth < square.dataWidth :=
      Nat.div_lt_of_lt_mul (full ▸ inside)
    obtain ⟨_, _, each⟩ := exists_namespaces_of_cellTrees extended rows row
    obtain ⟨share, ns, listed, _, own⟩ := each _ (Nat.mod_lt place nonempty)
    rw [Axis.place, Nat.div_add_mod', List.getElem?_eq_getElem inside] at listed
    obtain rfl := Option.some.inj listed
    exact Share.ns_eq_ok_space.mp (own.trans (congrArg Except.ok (Share.space_of_ns own).symm))
  ordered axis index first second inside before bound := by
    obtain ⟨trees, lines⟩ := found axis
    obtain ⟨namespaces, ordered, each⟩ := exists_namespaces_of_cellTrees extended lines inside
    obtain ⟨left, low, leftListed, lowNamed, leftOwn⟩ := each first (before.trans bound)
    obtain ⟨right, high, rightListed, highNamed, rightOwn⟩ := each second bound
    obtain ⟨_, rfl⟩ := List.getElem?_eq_some_iff.mp lowNamed
    obtain ⟨_, rfl⟩ := List.getElem?_eq_some_iff.mp highNamed
    rw [Ordered.spaceAt, Ordered.spaceAt, leftListed, rightListed, Option.map_some,
      Option.map_some, Share.space_of_ns leftOwn, Share.space_of_ns rightOwn]
    exact List.pairwise_iff_getElem.mp ordered first second _ _ before

/-- Shares have a header exactly when they make a square of an allowed width and are in order along
its rows and columns. The header then has a root for each row and column of the extension, and under
every root of a row a tree with that root is found. -/
theorem exists_ofShares_iff (shares : List Share) :
    ((∃ header trees, AvailabilityHeader.ofShares shares = .ok (header, trees)) ↔
      ∃ width, (1 ≤ width ∧ width ≤ 128 ∧ shares.length = width * width) ∧
        OrderedAlongAxes width shares) ∧
    ∀ width header trees, shares.length = width * width →
      AvailabilityHeader.ofShares shares = .ok (header, trees) →
        header.rowRoots.length = 2 * width ∧ header.columnRoots.length = 2 * width ∧
          ∀ root ∈ header.rowRoots, ∃ tree, trees.find? root = some tree ∧ tree.root = root := by
  refine ⟨⟨?_, ?_⟩, ?_⟩
  · rintro ⟨header, trees, built⟩
    obtain ⟨square, rows, columns, extended, rowsFound, columnsFound, _, _⟩ :=
      AvailabilityHeader.ofShares_eq_ok.mp built
    refine ⟨square.dataWidth, (extendShares_eq_ok.mp extended).1,
      orderedAlongAxes_of_cellTrees extended fun axis => ?_⟩
    cases axis with
    | row => exact ⟨rows, rowsFound⟩
    | column => exact ⟨columns, columnsFound⟩
  · rintro ⟨width, ⟨nonempty, narrow, full⟩, ordered⟩
    exact ordered.exists_ofShares nonempty narrow full
  · intro width header trees full built
    have roots := Square.length_roots_of_ofShares built
    rw [AvailabilityHeader.squareSize_of_ofShares built full] at roots
    refine ⟨roots.1, roots.2, fun root member => ?_⟩
    obtain ⟨_, rows, _, _, _, _, rfl, rfl⟩ := AvailabilityHeader.ofShares_eq_ok.mp built
    obtain ⟨tree, own, rfl⟩ := List.mem_map.mp member
    obtain ⟨found, listed, entry⟩ := RowTrees.exists_find?
      (List.mem_map_of_mem (f := fun tree : NamespacedTree => (tree.root, tree)) own :
        (tree.root, tree) ∈ (RowTrees.ofTrees rows).entries)
    exact ⟨found, entry, (rooted_of_ofShares built listed).1⟩

/-- Four shares that are in order along rows and columns have a header, though the second one stands
in a namespace above that of the third one. -/
theorem exists_ofShares_of_four :
    let shares := [Namespace.transaction, Namespace.payForBlob, Namespace.intermediateStateRoots,
      Namespace.reservedPadding].map Share.padding
    ¬ Ordered shares ∧ shares.length = 2 * 2 ∧ ∃ header trees,
      AvailabilityHeader.ofShares shares = .ok (header, trees) ∧
        header.rowRoots.length = 4 ∧ header.columnRoots.length = 4 ∧
          ∀ root ∈ header.rowRoots, ∃ tree, trees.find? root = some tree ∧ tree.root = root := by
  intro shares
  have stands (ns : Namespace) : (Share.padding ns).space = ns := Share.space_of_ns Share.ns_build
  have ordered : OrderedAlongAxes 2 shares := by
    constructor
    · intro share member
      obtain ⟨ns, _, rfl⟩ := List.mem_map.mp member
      exact Share.ns_eq_ok_space.mp (Share.ns_build.trans (congrArg Except.ok (stands ns).symm))
    · intro axis index first second inside before bound
      obtain rfl : first = 0 := by omega
      obtain rfl : second = 1 := by omega
      cases axis <;> interval_cases index <;>
        simp only [shares, Ordered.spaceAt, Axis.place, List.map_cons, List.map_nil] <;>
        decide
  obtain ⟨built, roots⟩ := exists_ofShares_iff shares
  obtain ⟨header, trees, whole⟩ := built.mpr ⟨2, ⟨by decide, by decide, rfl⟩, ordered⟩
  obtain ⟨rowCount, columnCount, found⟩ := roots 2 header trees rfl whole
  refine ⟨fun sorted => ?_, rfl, header, trees, whole, rowCount, columnCount, found⟩
  have above := (List.pairwise_cons.mp (List.pairwise_cons.mp sorted.ordered).2).1
    (Share.padding .intermediateStateRoots) List.mem_cons_self
  rw [stands, stands] at above
  exact absurd above (by decide)

end DataSquare
