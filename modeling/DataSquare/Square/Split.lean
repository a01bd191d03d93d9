import DataSquare.Share.Compact
import DataSquare.Share.Sparse
import DataSquare.Wire.Message

/-!
# The square of a block

The square holds the ordinary transactions, then the index wrappers, then the blobs in order,
each at the share that a wrapper declares for it, with padding in between and up to the end.
-/
namespace DataSquare

/-- Why block contents make no square. -/
inductive SplitError where
  /-- An index wrapper does not decode. -/
  | envelope (cause : EnvelopeError)
  /-- Transactions or a blob are not written as shares. -/
  | share (cause : ShareError)
  /-- There are not as many share indexes as blobs. -/
  | indexCountMismatch (indexes blobs : Nat)
  /-- A blob starts before what is placed ahead of it ends. -/
  | overlap (index cursor : Nat)
  /-- There are more shares than the square has. -/
  | tooManyShares (shares capacity : Nat)
  /-- The number of shares of the square needs more than 64 bits. -/
  | overflow
deriving DecidableEq, Repr

/-- The wording of a missing square. -/
def SplitError.message : SplitError → String
  | .envelope cause => cause.message
  | .share cause => cause.message
  | .indexCountMismatch indexes blobs =>
    s!"transactions declare {indexes} share indexes for {blobs} blobs"
  | .overlap index cursor => s!"blob at share index {index} overlaps data ending at {cursor}"
  | .tooManyShares shares capacity => s!"{shares} shares do not fit a square of {capacity}"
  | .overflow => "capacity of the square exceeds 64 bits"

instance : ToString SplitError := ⟨SplitError.message⟩

/-- The compact shares of the transactions of a block. -/
structure TxShares where
  /-- Those of ordinary transactions. -/
  ordinary : Compact.Sequence
  /-- Those of index wrappers. -/
  wrapped : Compact.Sequence
  /-- The share indexes of all wrappers in order. -/
  shareIndexes : List UInt32
deriving DecidableEq

namespace TxShares

/-- The transactions that are not index wrappers. -/
def ordinaryTxs (txs : List Bytes) : List Bytes := txs.filter fun tx => !IndexWrapper.isMarked tx

/-- The index wrappers. -/
def wrappedTxs (txs : List Bytes) : List Bytes := txs.filter IndexWrapper.isMarked

/-- The share indexes that index wrappers declare, one after the other. -/
def declaredIndexes (txs : List Bytes) : Except EnvelopeError (List UInt32) :=
  ((wrappedTxs txs).mapM IndexWrapper.ofBytes).map fun wrappers =>
    wrappers.flatMap IndexWrapper.shareIndexes

/-- Writes transactions as compact shares, the ordinary ones apart from the index wrappers. -/
def ofTxs (txs : List Bytes) : Except SplitError TxShares :=
  match declaredIndexes txs with
  | .error cause => .error (.envelope cause)
  | .ok shareIndexes =>
    match Compact.split Namespace.transaction (ordinaryTxs txs) with
    | .error cause => .error (.share cause)
    | .ok ordinary =>
      match Compact.split Namespace.payForBlob (wrappedTxs txs) with
      | .error cause => .error (.share cause)
      | .ok wrapped => .ok ⟨ordinary, wrapped, shareIndexes⟩

/-- All shares in order. -/
def shares (txShares : TxShares) : List Share :=
  txShares.ordinary.shares ++ txShares.wrapped.shares

/-- The number of shares before the first blob. -/
def length (txShares : TxShares) : Nat :=
  txShares.ordinary.shares.length + txShares.wrapped.shares.length

/-- Whether there are no shares. -/
def isEmpty (txShares : TxShares) : Bool := txShares.length == 0

/-- The share indexes in the order of the square. -/
def sortedIndexes (txShares : TxShares) : List Nat :=
  (txShares.shareIndexes.map UInt32.toNat).mergeSort fun left right => decide (left ≤ right)

end TxShares

namespace Square

/-- The padding of `count` shares before a blob: in the namespace of the blob before it, if there
is one. -/
def paddingBefore (previous : Option Namespace) (count : Nat) : List Share :=
  match previous with
  | none => Share.reservedPadding count
  | some ns => Share.namespacedPadding ns count

/-- The shares from `cursor` up to the end of the last blob. -/
def blobShares (capacity : Nat) :
    Nat → Option Namespace → List (Nat × Blob) → Except SplitError (List Share)
  | _, _, [] => .ok []
  | cursor, previous, (index, blob) :: rest =>
    if index < cursor then .error (.overlap index cursor)
    else if capacity < index then .error (.tooManyShares index capacity)
    else
      match Sparse.splitBlob blob with
      | .error cause => .error (.share cause)
      | .ok shares =>
        (blobShares capacity (index + shares.length) (some blob.ns) rest).map fun later =>
          paddingBefore previous (index - cursor) ++ shares ++ later

/-- The shares of a block, row by row. Blobs are paired with the share indexes in order. The number
of shares of the square is taken before anything else, and has to fit 64 bits. -/
def split (txs : List Bytes) (blobs : List Blob) (squareSize : Nat) :
    Except SplitError (List Share) :=
  match word? (squareSize * squareSize) with
  | none => .error .overflow
  | some capacity =>
    match TxShares.ofTxs txs with
    | .error cause => .error cause
    | .ok txShares =>
      if txShares.shareIndexes.length ≠ blobs.length then
        .error (.indexCountMismatch txShares.shareIndexes.length blobs.length)
      else
        match blobShares capacity txShares.length none (txShares.sortedIndexes.zip blobs) with
        | .error cause => .error cause
        | .ok placed =>
          let shares := txShares.shares ++ placed
          if capacity < shares.length then .error (.tooManyShares shares.length capacity)
          else .ok (shares ++ Share.tailPadding (capacity - shares.length))

end Square

/-- The shares of the square that the contents of a block make. -/
def BlockData.square (data : BlockData) : Except SplitError (List Share) :=
  Square.split data.txs data.blobs data.squareSize.toNat

end DataSquare
