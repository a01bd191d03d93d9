import DataSquare.Consensus
import DataSquare.Share.Basic
import DataSquare.Square.CellTree

/-!
# Availability headers

A header lists the roots of all rows and columns of an extended square, and its hash is the root
of the plain tree over them. Beside it stand the trees of the rows, from which the commitments to
blobs and the proofs of shares are taken.
-/
namespace DataSquare

open Merkle

/-- Why a square has no header, or a header is not one of an allowed square. -/
inductive HeaderError where
  /-- The shares are not extended. -/
  | extension (cause : ExtensionError)
  /-- A cell does not go into its tree. -/
  | cell (cause : CellError)
  /-- There are not as many rows as columns. -/
  | rootCountMismatch (rows columns : Nat)
  /-- No square of an allowed width has this many rows. -/
  | invalidWidth (width : Nat)
deriving DecidableEq, Repr

/-- The wording of a header error. -/
def HeaderError.message : HeaderError → String
  | .extension cause => cause.message
  | .cell cause => cause.message
  | .rootCountMismatch rows columns =>
    s!"header has {rows} row roots and {columns} column roots"
  | .invalidWidth width => s!"extended width {width} does not match an allowed square size"

instance : ToString HeaderError := ⟨HeaderError.message⟩

/-- The trees of rows, found by their roots. -/
structure RowTrees where
  /-- Each root with its tree, first row first. -/
  entries : List (NamespacedHash × NamespacedTree)
deriving DecidableEq

namespace RowTrees

/-- The trees of rows in order. -/
def ofTrees (trees : List NamespacedTree) : RowTrees := ⟨trees.map fun tree => (tree.root, tree)⟩

/-- The last tree with a given root. -/
def find? (trees : RowTrees) (root : NamespacedHash) : Option NamespacedTree :=
  (trees.entries.reverse.find? fun entry => entry.1 = root).map Prod.snd

end RowTrees

/-- The roots that commit to an extended square. -/
structure AvailabilityHeader where
  /-- The roots of the rows. -/
  rowRoots : List NamespacedHash
  /-- The roots of the columns. -/
  columnRoots : List NamespacedHash
deriving DecidableEq

/-- Extends the shares of a square, given row by row. -/
def extendShares (shares : List Share) : Except ExtensionError ExtendedSquare :=
  ExtendedSquare.compute (shares.map Share.bytes)

namespace AvailabilityHeader

/-- The header of an extended square, with the trees of its rows. -/
def withTrees (square : ExtendedSquare) : Except CellError (AvailabilityHeader × RowTrees) :=
  match square.cellTrees .row with
  | .error cause => .error cause
  | .ok rows =>
    match square.cellTrees .column with
    | .error cause => .error cause
    | .ok columns =>
      .ok (⟨rows.map NamespacedTree.root, columns.map NamespacedTree.root⟩, .ofTrees rows)

/-- The header of an extended square. -/
def ofSquare (square : ExtendedSquare) : Except CellError AvailabilityHeader :=
  (withTrees square).map Prod.fst

/-- The header of the square that shares make up, with the trees of its rows. -/
def ofShares (shares : List Share) : Except HeaderError (AvailabilityHeader × RowTrees) :=
  match extendShares shares with
  | .error cause => .error (.extension cause)
  | .ok square => (withTrees square).mapError .cell

/-- The header of the square of one padding share. -/
def smallest : Except HeaderError AvailabilityHeader :=
  (ofShares (Share.tailPadding 1)).map Prod.fst

/-- The width of the square before extension. -/
def squareSize (header : AvailabilityHeader) : Nat := header.rowRoots.length / 2

/-- What the hash of a header commits to: the row roots and then the column roots. -/
def leaves (header : AvailabilityHeader) : List Bytes :=
  (header.rowRoots ++ header.columnRoots).map NamespacedHash.bytes

/-- The root that commits to the square. -/
def hash (header : AvailabilityHeader) : Digest := Binary.root header.leaves

/-- A header has as many rows as columns, and those of a square of an allowed width. -/
def validate (header : AvailabilityHeader) (consts : AppConsts) : Except HeaderError Unit :=
  let rows := header.rowRoots.length
  if rows ≠ header.columnRoots.length then
    .error (.rootCountMismatch rows header.columnRoots.length)
  else if rows % 2 = 0 ∧ consts.isValidSquareSize (rows / 2) then .ok ()
  else .error (.invalidWidth rows)

end AvailabilityHeader

end DataSquare
