import DataSquare.Erasure.Code
import DataSquare.Merkle.Binary
import DataSquare.SquareRoot

/-!
# Extended squares

A square of chunks, extended to twice its width by the erasure code. The top right quadrant
extends the rows of the data, the bottom left one its columns, and the bottom right one the rows
of the bottom left one.
-/
namespace DataSquare

/-- Why chunks are not extended, or a part of an extended square is not there. -/
inductive ExtensionError where
  /-- The number of chunks is no square. -/
  | notASquare (chunks : Nat)
  /-- An extended axis would hold more chunks than the code takes. -/
  | tooManyChunks (width limit : Nat)
  /-- The chunks do not have one length. -/
  | unevenChunks
  /-- There is no such row or column. -/
  | indexOutOfBounds (index width : Nat)
  /-- The code refuses the chunks. -/
  | codec (cause : Erasure.CodecError)
deriving DecidableEq, Repr

/-- The wording of an extension error. -/
def ExtensionError.message : ExtensionError → String
  | .notASquare chunks => s!"{chunks} chunks do not form a square"
  | .tooManyChunks width limit =>
    s!"square width {width} exceeds the codec limit of {limit} chunks per axis"
  | .unevenChunks => "chunks are not all of equal size"
  | .indexOutOfBounds index width => s!"index {index} out of bounds for width {width}"
  | .codec cause => cause.message

instance : ToString ExtensionError := ⟨ExtensionError.message⟩

/-- A direction in a square. -/
inductive Axis where
  /-- Along the rows. -/
  | row
  /-- Along the columns. -/
  | column
deriving DecidableEq

/-- A square extended to twice its width. -/
structure ExtendedSquare where
  /-- The width before extension. -/
  dataWidth : Nat
  /-- The number of bytes of a cell. -/
  chunkSize : Nat
  /-- The rows of cells from top to bottom. -/
  rows : List (List Bytes)
deriving DecidableEq

namespace ExtendedSquare

/-- The rows of `width` entries that a list falls into. -/
def rowsOf {α : Type} (width : Nat) (cells : List α) : List (List α) :=
  (List.range width).map fun row => (cells.drop (row * width)).take width

/-- The columns of rows of `width` entries. -/
def columnsOf {α : Type} (width : Nat) (rows : List (List α)) : List (List α) :=
  rows.foldr (List.zipWith List.cons) (List.replicate width [])

/-- The width after extension. -/
def width (square : ExtendedSquare) : Nat := 2 * square.dataWidth

/-- The rows of a square of chunks and of its parity, given the weights of the code. -/
def extendRows (weights : List (List Erasure.Gf256)) (size : Nat) (rows : List (List Bytes)) :
    List (List Bytes) :=
  rows.map fun row => row ++ Erasure.applyWeights weights size row

/-- Extends chunks that are given row by row. -/
def compute (chunks : List Bytes) : Except ExtensionError ExtendedSquare :=
  let width := ceilSqrt chunks.length
  let size := (chunks.headD []).length
  if width = 0 ∨ width * width ≠ chunks.length then .error (.notASquare chunks.length)
  else if Erasure.maxChunks < 2 * width then
    .error (.tooManyChunks (2 * width) Erasure.maxChunks)
  else if chunks.any fun chunk => chunk.length != size then .error .unevenChunks
  else if size = 0 then .error (.codec .emptyChunk)
  else
    let weights := Erasure.parityWeights width
    let top := rowsOf width chunks
    let below := columnsOf width ((columnsOf width top).map (Erasure.applyWeights weights size))
    .ok ⟨width, size, extendRows weights size (top ++ below)⟩

/-- The columns of cells from left to right. -/
def columns (square : ExtendedSquare) : List (List Bytes) := columnsOf square.width square.rows

/-- The rows or the columns. -/
def lines (square : ExtendedSquare) : Axis → List (List Bytes)
  | .row => square.rows
  | .column => square.columns

/-- One row or column. -/
def line (square : ExtendedSquare) (axis : Axis) (index : Nat) :
    Except ExtensionError (List Bytes) :=
  match (square.lines axis)[index]? with
  | some cells => .ok cells
  | none => .error (.indexOutOfBounds index square.width)

/-- All cells, row by row. -/
def cells (square : ExtendedSquare) : List Bytes := square.rows.flatten

/-- The cell that comes `row` full rows and `column` cells after the first one, if there are as
many. -/
def cell? (square : ExtendedSquare) (row column : Nat) : Option Bytes :=
  square.cells[row * square.width + column]?

/-- The chunks that were extended, row by row. -/
def dataCells (square : ExtendedSquare) : List Bytes :=
  (square.rows.take square.dataWidth).flatMap fun row => row.take square.dataWidth

/-- The roots of the plain trees over the cells of each row or column. -/
def plainRoots (square : ExtendedSquare) (axis : Axis) : List Digest :=
  (square.lines axis).map Merkle.Binary.root

end ExtendedSquare

end DataSquare
