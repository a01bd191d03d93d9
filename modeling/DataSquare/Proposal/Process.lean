import DataSquare.Proposal.Basic

/-!
# Processing a proposal

A validator rebuilds the square from the contents of a block and accepts the block only when
every check passes. The commitments paid for are looked up in the rows of that square.
-/
namespace DataSquare

/-- A transaction in an index wrapper of a block. -/
structure WrappedPayment where
  /-- Its position in the block. -/
  index : Nat
  /-- Its signers. -/
  signers : List Address
  /-- Its payment. -/
  payment : BlobPayment
  /-- The first share of each of its blobs. -/
  shareIndexes : List UInt32
deriving DecidableEq

namespace WrappedPayment

/-- The payment in an index wrapper. -/
def ofWrapper (index : Nat) (raw : Bytes) : Except UndecodableReason WrappedPayment :=
  match IndexWrapper.ofBytes raw with
  | .error cause => .error (.envelope cause)
  | .ok wrapper =>
    match Tx.ofBytes wrapper.tx with
    | .error cause => .error (.inner cause)
    | .ok tx =>
      match tx.payment? with
      | none => .error .notPayment
      | some payment => .ok ⟨index, tx.signers, payment, wrapper.shareIndexes⟩

/-- The payment in a transaction of a block, if it is an index wrapper. No other transaction may
pay for blobs. -/
def ofBlockTx? (index : Nat) (raw : Bytes) : Except RejectReason (Option WrappedPayment) :=
  if IndexWrapper.isMarked raw then
    match ofWrapper index raw with
    | .error cause => .error (.undecodable index cause)
    | .ok wrapped => .ok (some wrapped)
  else if BlobTx.isMarked raw || Tx.rawPaysForBlobs raw then .error (.unwrappedBlobTx index)
  else .ok none

/-- Whether exactly the account that pays signs. -/
def checkSigners (wrapped : WrappedPayment) : Except RejectReason Unit :=
  match wrapped.signers with
  | [only] =>
    if only = wrapped.payment.signer then .ok () else .error (.signerMismatch wrapped.index)
  | _ => .error (.multipleSigners wrapped.index wrapped.signers.length)

/-- What a payment declares about the blob at a position, if all four lists reach there. -/
def declared? (wrapped : WrappedPayment) (position : Nat) : Option DeclaredBlob := do
  let ns ← wrapped.payment.namespaces[position]?
  let size ← wrapped.payment.blobSizes[position]?
  let commitment ← wrapped.payment.commitments[position]?
  let version ← wrapped.payment.shareVersions[position]?
  some ⟨ns, size, commitment, version⟩

end WrappedPayment

namespace Process

/-- Whether a list of blobs is in the order of their namespaces. -/
def isSorted : List Blob → Bool
  | first :: second :: rest => decide (first.ns ≤ second.ns) && isSorted (second :: rest)
  | _ => true

/-- The payments of a block whose transactions decode and whose blobs may be published. -/
def decode (data : BlockData) : Except RejectReason (List WrappedPayment) := do
  let wrapped ← data.txs.zipIdx.mapM fun (raw, index) => WrappedPayment.ofBlockTx? index raw
  let wrapped := wrapped.filterMap id
  data.blobs.zipIdx.forM fun (blob, index) => blob.validate.mapError (.invalidBlob index)
  let paid := (wrapped.flatMap WrappedPayment.shareIndexes).length
  if !isSorted data.blobs then .error .unsortedBlobs
  else if paid ≠ data.blobs.length then .error (.blobCountMismatch paid data.blobs.length)
  else .ok wrapped

/-- The blobs of a block beside the share indexes that payments declare, both in order. -/
def placedBlobs (wrapped : List WrappedPayment) (blobs : List Blob) : List (UInt32 × Blob) :=
  ((wrapped.flatMap WrappedPayment.shareIndexes).mergeSort fun left right =>
    decide (left ≤ right)).zip blobs

/-- The blob at a share index. Of several the last one counts. -/
def blobAt (placed : List (UInt32 × Blob)) (shareIndex : UInt32) : Option Blob :=
  (placed.reverse.find? fun entry => entry.1 = shareIndex).map Prod.snd

/-- What the commitments of a block are checked against. -/
structure Rebuilt where
  /-- The header of the square. -/
  header : AvailabilityHeader
  /-- The trees of its rows. -/
  trees : RowTrees
  /-- The number of subtrees from which on commitments use wider ones. -/
  threshold : Nat
  /-- The blobs with their share indexes. -/
  placed : List (UInt32 × Blob)

/-- Whether the blob at a share index is what a payment declares. -/
def checkBlob (square : Rebuilt) (wrapped : WrappedPayment) (shareIndex : UInt32)
    (position : Nat) : Except RejectReason Unit :=
  match wrapped.declared? position with
  | none => .error (.undeclaredBlob wrapped.index position)
  | some declared =>
    if (blobAt square.placed shareIndex).map Blob.ns ≠ some declared.ns then
      .error (.namespaceMismatch shareIndex)
    else
      match squareCommitment square.trees square.header shareIndex.toNat
        (sparseSharesNeeded declared.size.toNat) square.threshold with
      | .error cause => .error (.commitmentNotFound shareIndex cause)
      | .ok commitment =>
        if commitment ≠ declared.commitment then .error (.commitmentMismatch shareIndex)
        else .ok ()

/-- Whether a payment is sound and the square holds what it declares. -/
def checkPayment (square : Rebuilt) (wrapped : WrappedPayment) : Except RejectReason Unit := do
  wrapped.payment.validate.mapError (.invalidPayment wrapped.index)
  wrapped.checkSigners
  if wrapped.shareIndexes.length ≠ wrapped.payment.blobCount then
    .error (.shareIndexCountMismatch wrapped.index wrapped.payment.blobCount
      wrapped.shareIndexes.length)
  else
    wrapped.shareIndexes.zipIdx.forM fun (shareIndex, position) =>
      checkBlob square wrapped shareIndex position

/-- Whether all payments of a block are sound and pay for all its blobs. -/
def checkCommitments (square : Rebuilt) (wrapped : List WrappedPayment) (blobs : List Blob) :
    Except RejectReason Unit := do
  wrapped.forM (checkPayment square)
  let paid := (wrapped.flatMap WrappedPayment.shareIndexes).length
  if paid ≠ blobs.length then .error (.blobCountMismatch paid blobs.length) else .ok ()

/-- A refusal after a state was passed. -/
structure Rejection where
  /-- The furthest state that was passed. -/
  state : ProposalState
  /-- What was wrong then. -/
  reason : RejectReason
deriving DecidableEq

/-- A check that is made after a state was passed. -/
def after {α : Type} (state : ProposalState) (check : Except RejectReason α) :
    Except Rejection α :=
  check.mapError (Rejection.mk state)

/-- The width of the square of a block, if squares may have it. -/
def squareSize (data : BlockData) (consts : AppConsts) : Except RejectReason Nat :=
  if consts.isValidSquareSize data.squareSize.toNat then .ok data.squareSize.toNat
  else .error (.invalidSquareSize data.squareSize)

/-- Whether the header of a square is the one a block declares. -/
def checkHash (declared computed : Digest) : Except RejectReason Unit :=
  if computed ≠ declared then .error (.dataRootMismatch declared computed) else .ok ()

/-- All checks in order. -/
def verify (block : Block) (consts : AppConsts) : Except Rejection Unit := do
  let size ← after .received (squareSize block.data consts)
  let wrapped ← after .received (decode block.data)
  let shares ← after .decoded
    ((Square.split block.data.txs block.data.blobs size).mapError .split)
  let (header, trees) ← after .split ((AvailabilityHeader.ofShares shares).mapError .erasure)
  after .erasured (checkHash block.header.dataHash header.hash)
  after .headerVerified (checkCommitments
    ⟨header, trees, consts.subtreeRootThreshold, placedBlobs wrapped block.data.blobs⟩
    wrapped block.data.blobs)

end Process

/-- What a validator makes of a block. -/
def processProposal (block : Block) (consts : AppConsts) : ProcessOutcome :=
  match Process.verify block consts with
  | .ok () => .accepted
  | .error rejection => .rejected rejection.state rejection.reason

end DataSquare
