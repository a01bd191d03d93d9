import DataSquare.Proofs.Merkle.Grown
import DataSquare.Square.CellTree

/-!
# Trees over the cells of an axis

A tree over a row or column grows cell by cell. One step needs a namespace for the cell that is
not below the one before; so a whole line has a tree exactly when all its cells have namespaces
and these are in order, and the tree has one leaf for each cell.
-/
namespace DataSquare

open Merkle

namespace CellTree

/-- The namespace in which the cell at a position of a row or column stands. -/
def namespaceAt (squareSize index position : Nat) (cell : Bytes) : Except CellError Namespace :=
  cellNamespace (decide (index < squareSize) && decide (position < squareSize)) cell

/-- The namespaces of the cells of a row or column from a position on. -/
def namespacesFrom (squareSize index position : Nat) (line : List Bytes) :
    Except CellError (List Namespace) :=
  (line.zipIdx position).mapM fun (cell, position) => namespaceAt squareSize index position cell

/-- The namespaces of a line are that of its first cell and those of the cells after it. -/
theorem namespacesFrom_cons_eq_ok {squareSize index position : Nat} {cell : Bytes}
    {line : List Bytes} {namespaces : List Namespace} :
    namespacesFrom squareSize index position (cell :: line) = .ok namespaces ↔
      ∃ ns rest, namespaceAt squareSize index position cell = .ok ns ∧
        namespacesFrom squareSize index (position + 1) line = .ok rest ∧
        namespaces = ns :: rest := by
  simp only [namespacesFrom, List.zipIdx_cons, mapM_eq_ok, List.forall₂_cons_left_iff]

/-- The tree with one more leaf. -/
def grow (cells : CellTree) (ns : Namespace) (cell : Bytes) : CellTree :=
  { cells with tree := ⟨cells.tree.leaves ++ [NamespacedHash.leaf ns cell]⟩ }

/-- The greatest namespace of the last leaf, if there is a leaf. -/
def lastNamespace (cells : CellTree) : Option Namespace :=
  cells.tree.leaves.getLast?.map NamespacedHash.max

/-- The last leaf of a tree that grew is the new one. -/
@[simp] theorem lastNamespace_grow (cells : CellTree) (ns : Namespace) (cell : Bytes) :
    (cells.grow ns cell).lastNamespace = some ns := by
  simp [lastNamespace, grow, NamespacedHash.leaf]

/-- A cell is appended exactly when it has a namespace that is not below the last one. -/
theorem push_eq_ok {cells grown : CellTree} {cell : Bytes} :
    cells.push cell = .ok grown ↔
      ∃ ns, namespaceAt cells.squareSize cells.index cells.tree.leaves.length cell = .ok ns ∧
        (∀ last ∈ cells.lastNamespace, last ≤ ns) ∧ grown = cells.grow ns cell := by
  have named : cellNamespace cells.nextIsData cell =
      namespaceAt cells.squareSize cells.index cells.tree.leaves.length cell := rfl
  rw [push, named]
  cases namespaceAt cells.squareSize cells.index cells.tree.leaves.length cell with
  | error cause => simp
  | ok ns =>
    simp only [lastNamespace, Option.mem_map, forall_exists_index, and_imp,
      forall_apply_eq_imp_iff₂, Except.ok.injEq, exists_eq_left']
    cases pushed : cells.tree.push ns cell with
    | ok tree =>
      obtain ⟨fits, rfl⟩ := NamespacedTree.push_eq_ok.mp pushed
      simp only [grow, Except.ok.injEq, eq_comm, iff_and_self]
      exact fun _ => fits
    | error cause =>
      simp only [reduceCtorEq, false_iff]
      rintro ⟨fits, _⟩
      rw [NamespacedTree.push_eq_ok.mpr ⟨fits, rfl⟩] at pushed
      contradiction

/-- Namespaces are in order from the last one of a tree on exactly when the first of them is not
below that one and they are in order. -/
theorem isChain_lastNamespace_cons {cells : CellTree} {ns : Namespace}
    {namespaces : List Namespace} :
    (cells.lastNamespace.toList ++ ns :: namespaces).IsChain (· ≤ ·) ↔
      (∀ last ∈ cells.lastNamespace, last ≤ ns) ∧ (ns :: namespaces).IsChain (· ≤ ·) := by
  cases cells.lastNamespace with
  | none => simp
  | some last => simp [List.isChain_cons_cons]

/-- Cells are appended one after the other exactly when they have namespaces in order, from the
last one of the tree on. -/
theorem foldlM_push_eq_ok {cells grown : CellTree} {line : List Bytes} :
    line.foldlM push cells = .ok grown ↔
      ∃ namespaces,
        namespacesFrom cells.squareSize cells.index cells.tree.leaves.length line
            = .ok namespaces ∧
          (cells.lastNamespace.toList ++ namespaces).IsChain (· ≤ ·) ∧
          grown = { cells with
            tree := ⟨cells.tree.leaves ++ List.zipWith NamespacedHash.leaf namespaces line⟩ } := by
  induction line generalizing cells with
  | nil =>
    have alone : cells.lastNamespace.toList.IsChain (· ≤ ·) := by
      cases cells.lastNamespace <;> simp
    simp [namespacesFrom, pure, Except.pure, alone, eq_comm]
  | cons cell line ih =>
    rw [List.foldlM_cons, bind_eq_ok]
    simp only [namespacesFrom_cons_eq_ok]
    constructor
    · rintro ⟨next, pushed, run⟩
      obtain ⟨ns, standing, ordered, rfl⟩ := push_eq_ok.mp pushed
      obtain ⟨namespaces, found, chain, rfl⟩ := ih.mp run
      rw [lastNamespace_grow] at chain
      exact ⟨ns :: namespaces, ⟨ns, namespaces, standing, by simpa [grow] using found, rfl⟩,
        isChain_lastNamespace_cons.mpr ⟨ordered, chain⟩, by simp [grow]⟩
    · rintro ⟨_, ⟨ns, namespaces, standing, found, rfl⟩, chain, rfl⟩
      obtain ⟨ordered, later⟩ := isChain_lastNamespace_cons.mp chain
      refine ⟨cells.grow ns cell, push_eq_ok.mpr ⟨ns, standing, ordered, rfl⟩,
        ih.mpr ⟨namespaces, by simpa [grow] using found, ?_, by simp [grow]⟩⟩
      rw [lastNamespace_grow]
      exact later

/-- A row or column has a tree exactly when its cells have namespaces in order. -/
theorem ofLine_eq_ok {squareSize index : Nat} {line : List Bytes} {tree : NamespacedTree} :
    ofLine squareSize index line = .ok tree ↔
      ∃ namespaces, namespacesFrom squareSize index 0 line = .ok namespaces ∧
        namespaces.Pairwise (· ≤ ·) ∧
        tree = ⟨List.zipWith NamespacedHash.leaf namespaces line⟩ := by
  have : IsTrans Namespace (· ≤ ·) := ⟨fun _ _ _ => Namespace.le_trans⟩
  rw [ofLine, map_eq_ok]
  simp only [foldlM_push_eq_ok, List.isChain_iff_pairwise]
  constructor
  · rintro ⟨_, ⟨namespaces, found, ordered, rfl⟩, rfl⟩
    exact ⟨namespaces, found, by simpa [lastNamespace, empty, NamespacedTree.empty] using ordered,
      by simp [empty, NamespacedTree.empty]⟩
  · rintro ⟨namespaces, found, ordered, rfl⟩
    exact ⟨_, ⟨namespaces, found, by simpa [lastNamespace, empty, NamespacedTree.empty], rfl⟩,
      by simp [empty, NamespacedTree.empty]⟩

/-- There is a namespace for each cell. -/
theorem namespacesFrom_eq_ok {squareSize index position : Nat} {strip : List Bytes}
    {namespaces : List Namespace} :
    namespacesFrom squareSize index position strip = .ok namespaces ↔
      namespaces.length = strip.length ∧ ∀ (offset : Nat) (cell : Bytes),
        strip[offset]? = some cell → ∃ ns, namespaces[offset]? = some ns ∧
          namespaceAt squareSize index (position + offset) cell = .ok ns := by
  rw [namespacesFrom, mapM_eq_ok, List.forall₂_iff_get]
  constructor
  · rintro ⟨length, each⟩
    rw [List.length_zipIdx] at length
    refine ⟨length.symm, fun offset cell found => ?_⟩
    obtain ⟨inside, rfl⟩ := List.getElem?_eq_some_iff.mp found
    have stands := each offset (by simpa using inside) (by omega)
    simp only [List.get_eq_getElem, List.getElem_zipIdx] at stands
    exact ⟨_, List.getElem?_eq_getElem (by omega), stands⟩
  · rintro ⟨length, each⟩
    refine ⟨by simp [length], fun offset inside bound => ?_⟩
    rw [List.length_zipIdx] at inside
    obtain ⟨ns, found, stands⟩ := each offset _ (List.getElem?_eq_getElem inside)
    obtain ⟨_, rfl⟩ := List.getElem?_eq_some_iff.mp found
    simpa using stands

end CellTree

end DataSquare
