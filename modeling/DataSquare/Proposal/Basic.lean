import DataSquare.Mempool.Eviction
import DataSquare.Square.Split

/-!
# Proposals

What a proposer publishes, how far a validator gets with it, and why it is refused.
-/
namespace DataSquare

/-- The furthest step that a proposal passes. -/
inductive ProposalState where
  /-- It arrived. -/
  | received
  /-- Its transactions and blobs decode and are in order. -/
  | decoded
  /-- Its contents make a square. -/
  | split
  /-- The square is extended and has a header. -/
  | erasured
  /-- The header is the one that is declared. -/
  | headerVerified
  /-- The commitments are the ones paid for. -/
  | commitmentsVerified
  /-- It is accepted. -/
  | accepted
deriving DecidableEq

namespace ProposalState

/-- The name of a state. -/
def name : ProposalState → String
  | .received => "received"
  | .decoded => "decoded"
  | .split => "split"
  | .erasured => "erasured"
  | .headerVerified => "header-verified"
  | .commitmentsVerified => "commitments-verified"
  | .accepted => "accepted"

/-- All states in the order in which they are passed. -/
def inOrder : List ProposalState :=
  [.received, .decoded, .split, .erasured, .headerVerified, .commitmentsVerified, .accepted]

end ProposalState

/-- Why a transaction of a block does not decode. -/
inductive UndecodableReason where
  /-- It is no index wrapper although it is marked as one. -/
  | envelope (cause : EnvelopeError)
  /-- The wrapped transaction does not decode. -/
  | inner (cause : WireError)
  /-- The wrapped transaction is not a single payment for blobs. -/
  | notPayment
deriving DecidableEq, Repr

/-- The wording of a transaction that does not decode. -/
def UndecodableReason.message : UndecodableReason → String
  | .envelope cause => cause.message
  | .inner cause => cause.message
  | .notPayment => "index wrapper without a single MsgPayForBlobs"

instance : ToString UndecodableReason := ⟨UndecodableReason.message⟩

/-- Why a proposal is refused. -/
inductive RejectReason where
  /-- No square has this width. -/
  | invalidSquareSize (size : UInt64)
  /-- A transaction does not decode. -/
  | undecodable (index : Nat) (cause : UndecodableReason)
  /-- A transaction pays for blobs outside an index wrapper. -/
  | unwrappedBlobTx (index : Nat)
  /-- A blob may not be published. -/
  | invalidBlob (index : Nat) (cause : BlobError)
  /-- The blobs are not in the order of their namespaces. -/
  | unsortedBlobs
  /-- A payment is refused on its own. -/
  | invalidPayment (index : Nat) (cause : PaymentError)
  /-- A payment does not have exactly one signer. -/
  | multipleSigners (index signers : Nat)
  /-- The signer is not the account that pays. -/
  | signerMismatch (index : Nat)
  /-- A payment does not have a share index for each of its blobs. -/
  | shareIndexCountMismatch (index declared indexes : Nat)
  /-- The contents make no square. -/
  | split (cause : SplitError)
  /-- The square has no header. -/
  | erasure (cause : HeaderError)
  /-- The header is not the one that is declared. -/
  | dataRootMismatch (declared computed : Digest)
  /-- The blob at a share index is in another namespace than is paid for. -/
  | namespaceMismatch (shareIndex : UInt32)
  /-- There is no commitment at a share index. -/
  | commitmentNotFound (shareIndex : UInt32) (cause : InclusionError)
  /-- The commitment at a share index is not the one paid for. -/
  | commitmentMismatch (shareIndex : UInt32)
  /-- There are not as many blobs as are paid for. -/
  | blobCountMismatch (paid blobs : Nat)
  /-- A share index has no entry in the payment it belongs to. -/
  | undeclaredBlob (index position : Nat)
deriving DecidableEq, Repr

/-- The wording of a refusal. -/
def RejectReason.message : RejectReason → String
  | .invalidSquareSize size => s!"invalid square size {size}"
  | .undecodable index cause => s!"undecodable transaction {index}: {cause.message}"
  | .unwrappedBlobTx index => s!"transaction {index} pays for blobs without an index wrapper"
  | .invalidBlob index cause => s!"invalid blob {index}: {cause.message}"
  | .unsortedBlobs => "blobs are unsorted"
  | .invalidPayment index cause =>
    s!"invalid MsgPayForBlobs in transaction {index}: {cause.message}"
  | .multipleSigners index signers =>
    s!"MsgPayForBlobs in transaction {index} has {signers} signers"
  | .signerMismatch index =>
    s!"signer of transaction {index} differs from its MsgPayForBlobs signer"
  | .shareIndexCountMismatch index declared indexes =>
    s!"transaction {index} declares {declared} blobs with {indexes} share indexes"
  | .split cause => s!"failure to compute shares from block data: {cause.message}"
  | .erasure cause => s!"failure to erasure the data square: {cause.message}"
  | .dataRootMismatch declared computed =>
    s!"proposed data root {Text.identifier declared.bytes} differs from calculated data root " ++
      Text.identifier computed.bytes
  | .namespaceMismatch shareIndex =>
    s!"blob at share {shareIndex} is not in the namespace paid for"
  | .commitmentNotFound shareIndex cause =>
    s!"commitment not found at share {shareIndex}: {cause.message}"
  | .commitmentMismatch shareIndex =>
    s!"found commitment at share {shareIndex} does not match the declared one"
  | .blobCountMismatch paid blobs =>
    s!"varying number of paid blobs ({paid}) and blobs ({blobs}) in the same block"
  | .undeclaredBlob index position =>
    s!"transaction {index} does not declare blob {position}"

instance : ToString RejectReason := ⟨RejectReason.message⟩

/-- What a validator makes of a proposal. -/
inductive ProcessOutcome where
  /-- It is accepted. -/
  | accepted
  /-- It is refused after it passed a state. -/
  | rejected (state : ProposalState) (reason : RejectReason)
deriving DecidableEq

namespace ProcessOutcome

/-- Whether a proposal is accepted. -/
def isAccepted : ProcessOutcome → Bool
  | .accepted => true
  | .rejected _ _ => false

/-- The furthest state a proposal passed. -/
def state : ProcessOutcome → ProposalState
  | .accepted => .accepted
  | .rejected state _ => state

end ProcessOutcome

/-- Why the square of a layout is not what it should be. -/
inductive InvariantError where
  /-- The contents make no square. -/
  | split (cause : SplitError)
  /-- The square has no header. -/
  | header (cause : HeaderError)
  /-- The blobs have no places in the square. -/
  | noLayout
deriving DecidableEq, Repr

/-- The wording of a broken invariant. -/
def InvariantError.message : InvariantError → String
  | .split cause => cause.message
  | .header cause => cause.message
  | .noLayout => "square without a layout"

instance : ToString InvariantError := ⟨InvariantError.message⟩

/-- Why there is no proposal. -/
inductive ProposalError where
  /-- There is no square for the candidates. -/
  | estimate (cause : EstimateError)
  /-- An index wrapper is not written. -/
  | envelope (cause : EnvelopeError)
  /-- The square of the layout is inconsistent, and no other node could rebuild it. -/
  | invariant (cause : InvariantError)
deriving DecidableEq, Repr

namespace ProposalError

/-- The wording of a missing proposal. -/
def message : ProposalError → String
  | .estimate cause => cause.message
  | .envelope cause => cause.message
  | .invariant cause => s!"square construction invariant violated: {cause.message}"

instance : ToString ProposalError := ⟨message⟩

/-- Whether a proposer must not go on. -/
def isFatal : ProposalError → Bool
  | .invariant _ => true
  | _ => false

end ProposalError

/-- What a proposer publishes. -/
structure PreparedProposal where
  /-- The contents of the block. -/
  data : BlockData
  /-- The header of the square. -/
  header : AvailabilityHeader
  /-- The root that commits to the square. -/
  dataHash : Digest
deriving DecidableEq

end DataSquare
