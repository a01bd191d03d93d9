import DataSquare.Share.Sparse
import DataSquare.Square.Header

/-!
# Commitments to blobs

The commitment to a blob is the root of a plain tree over the roots of subtrees of its shares.
The widths of the subtrees depend on nothing but the number of shares, so that a sender computes
the commitment from the blob alone and a validator finds the same subtrees in the rows of the
square. Numbers of shares and widths are machine numbers, so there is no commitment when one of them
needs more than 64 bits.
-/
namespace DataSquare

open Merkle

/-- Why there is no commitment. -/
inductive InclusionError where
  /-- The blob is not written as shares. -/
  | share (cause : ShareError)
  /-- A row has no such subtree. -/
  | tree (cause : NamespacedError)
  /-- The blob takes no shares. -/
  | empty
  /-- The shares run past the end of the square. -/
  | outOfSquare (index shares : Nat)
  /-- There is no tree for a row. -/
  | rowNotCached (row : Nat)
  /-- A subtree does not end in the row it starts in. -/
  | crossesRow (column width : Nat)
  /-- A number of shares or a width needs more than 64 bits. -/
  | overflow
deriving DecidableEq, Repr

/-- The wording of a missing commitment. -/
def InclusionError.message : InclusionError → String
  | .share cause => cause.message
  | .tree cause => cause.message
  | .empty => "blob occupies no shares"
  | .outOfSquare index shares =>
    s!"share index {index} is outside a square of {shares} shares"
  | .rowNotCached row => s!"no cached tree for row {row}"
  | .crossesRow column width =>
    s!"subtree of {width} shares at column {column} crosses the row boundary"
  | .overflow => "number of shares exceeds 64 bits"

instance : ToString InclusionError := ⟨InclusionError.message⟩

/-- The largest width of a subtree of a blob: wide enough for no more subtrees than a threshold,
and no wider than the smallest square of the blob. -/
def subtreeWidth (shareCount threshold : Nat) : Nat :=
  min (ceilPowerOfTwo (ceilDiv shareCount (max threshold 1))) (blobMinSquareSize shareCount)

/-- The largest width of a subtree of a blob, if both bounds on it are found within 64 bits. -/
def subtreeWidth? (shareCount threshold : Nat) : Option Nat :=
  (ceilPowerOfTwo? (ceilDiv shareCount (max threshold 1))).bind fun wide =>
    (blobMinSquareSize? shareCount).map (min wide)

/-- The width of the first tree of a mountain range: the largest width if it fits, otherwise the
largest power of two that does. -/
def firstWidth (total largest : Nat) : Nat :=
  if largest ≤ total then largest else floorPowerOfTwo total

/-- The first tree of a range that is not empty has a width. -/
theorem firstWidth_pos {total largest : Nat} (htotal : total ≠ 0) (hlargest : largest ≠ 0) :
    0 < firstWidth total largest := by
  have hfloor := floorPowerOfTwo_pos (Nat.pos_of_ne_zero htotal)
  unfold firstWidth
  split <;> omega

/-- The widths of the trees of a mountain range. Trees of width zero cover nothing. -/
def mountainRange (total largest : Nat) : List Nat :=
  if _h : total = 0 ∨ largest = 0 then []
  else firstWidth total largest :: mountainRange (total - firstWidth total largest) largest
termination_by total
decreasing_by
  have := firstWidth_pos (fun h => _h (.inl h)) (fun h => _h (.inr h))
  omega

/-- The runs of the given widths that a list falls into. -/
def runs {α : Type} : List Nat → List α → List (List α)
  | [], _ => []
  | width :: widths, items => items.take width :: runs widths (items.drop width)

/-- The commitment made of the roots of subtrees. -/
def commitmentOfRoots (roots : List NamespacedHash) : Digest :=
  Binary.root (roots.map NamespacedHash.bytes)

/-- The commitment to a blob, computed from the blob. -/
def blobCommitment (blob : Blob) (threshold : Nat) : Except InclusionError Digest :=
  if blob.data.isEmpty then .error .empty
  else
    match Sparse.splitBlob blob with
    | .error cause => .error (.share cause)
    | .ok shares =>
      match subtreeWidth? shares.length threshold with
      | none => .error .overflow
      | some largest =>
        let leaves := shares.map fun share => NamespacedHash.leaf blob.ns share.bytes
        let widths := mountainRange shares.length largest
        .ok (commitmentOfRoots ((runs widths leaves).map namespacedRoot))

/-- The root of the subtree of `width` shares that starts at a share of a square. -/
def subtreeRootAt (trees : RowTrees) (header : AvailabilityHeader) (start width : Nat) :
    Except InclusionError NamespacedHash :=
  let row := start / header.squareSize
  let column := start % header.squareSize
  if header.squareSize < column + width then .error (.crossesRow column width)
  else
    match header.rowRoots[row]?.bind trees.find? with
    | none => .error (.rowNotCached row)
    | some tree => (tree.subtreeRoot column (column + width)).mapError .tree

/-- The roots of consecutive subtrees of the given widths. -/
def subtreeRootsFrom (trees : RowTrees) (header : AvailabilityHeader) :
    Nat → List Nat → Except InclusionError (List NamespacedHash)
  | _, [] => .ok []
  | start, width :: widths =>
    match subtreeRootAt trees header start width with
    | .error cause => .error cause
    | .ok root =>
      (subtreeRootsFrom trees header (start + width) widths).map (root :: ·)

/-- The commitment to the blob in a run of shares, found in the rows of a square. -/
def squareCommitment (trees : RowTrees) (header : AvailabilityHeader)
    (start shareCount threshold : Nat) : Except InclusionError Digest :=
  if shareCount = 0 then .error .empty
  else
    match word? (header.squareSize * header.squareSize), word? (start + shareCount) with
    | some shares, some stop =>
      if shares < stop then .error (.outOfSquare (stop - 1) shares)
      else
        match subtreeWidth? shareCount threshold with
        | none => .error .overflow
        | some largest =>
          (subtreeRootsFrom trees header start (mountainRange shareCount largest)).map
            commitmentOfRoots
    | _, _ => .error .overflow

end DataSquare
