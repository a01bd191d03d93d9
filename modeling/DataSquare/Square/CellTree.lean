import DataSquare.Erasure.ExtendedSquare
import DataSquare.Merkle.Namespaced

/-!
# Trees over the cells of an axis

Every row and column of an extended square has a namespaced tree. A cell of the data quadrant
stands in the namespace it starts with, every other cell in the namespace of parity.
-/
namespace DataSquare

/-- Why a cell does not go into the tree of its axis. -/
inductive CellError where
  /-- The cell is too short for a namespace. -/
  | shortCell (size : Nat)
  /-- The cell starts with no namespace. -/
  | namespaceError (cause : NamespaceError)
  /-- The tree refuses the cell. -/
  | refused (cause : Merkle.NamespacedError)
deriving DecidableEq, Repr

/-- The wording of a cell error. -/
def CellError.message : CellError → String
  | .shortCell size => s!"tree error: cell of {size} bytes"
  | .namespaceError cause => s!"tree error: {cause.message}"
  | .refused cause => s!"tree error: {cause.message}"

instance : ToString CellError := ⟨CellError.message⟩

/-- The namespace in which a cell stands, given whether it is in the data quadrant. -/
def cellNamespace (isData : Bool) (cell : Bytes) : Except CellError Namespace :=
  if isData then
    if cell.length < 29 then .error (.shortCell cell.length)
    else (Namespace.ofBytes (cell.take 29)).mapError .namespaceError
  else .ok Namespace.parity

/-- The tree over the cells of a row or column, as far as they were pushed. -/
structure CellTree where
  /-- The width of the square before extension. -/
  squareSize : Nat
  /-- The position of the row or column. -/
  index : Nat
  /-- The tree over the cells. -/
  tree : Merkle.NamespacedTree
deriving DecidableEq

namespace CellTree

/-- The tree of a row or column before its first cell. -/
def empty (squareSize index : Nat) : CellTree := ⟨squareSize, index, .empty⟩

/-- Whether the next cell is in the data quadrant. The quadrant is a square, so rows and
columns have the same answer. -/
def nextIsData (cells : CellTree) : Bool :=
  cells.index < cells.squareSize && cells.tree.leaves.length < cells.squareSize

/-- Appends the next cell. -/
def push (cells : CellTree) (cell : Bytes) : Except CellError CellTree :=
  match cellNamespace cells.nextIsData cell with
  | .error cause => .error cause
  | .ok ns =>
    match cells.tree.push ns cell with
    | .error cause => .error (.refused cause)
    | .ok tree => .ok { cells with tree }

/-- The tree over all cells of a row or column. -/
def ofLine (squareSize index : Nat) (line : List Bytes) : Except CellError Merkle.NamespacedTree :=
  (line.foldlM push (empty squareSize index)).map CellTree.tree

end CellTree

/-- The trees of all rows or of all columns of an extended square. -/
def ExtendedSquare.cellTrees (square : ExtendedSquare) (axis : Axis) :
    Except CellError (List Merkle.NamespacedTree) :=
  (square.lines axis).zipIdx.mapM fun (line, index) =>
    CellTree.ofLine square.dataWidth index line

end DataSquare
