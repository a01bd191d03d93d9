import DataSquare.Square.Commitment
import DataSquare.Wire.Message

/-!
# Candidate transactions

What a user submits becomes a candidate for the square or is dropped. A plain transaction is a
candidate as it is, unless it pays for blobs that it does not bring. A blob transaction is a
candidate when its payment declares exactly the blobs it carries, is signed by the account that
pays, and has enough gas.
-/
namespace DataSquare

/-- Why a blob transaction is no candidate. -/
inductive BlobTxError where
  /-- The inner transaction does not decode. -/
  | wire (cause : WireError)
  /-- The inner transaction is not a single payment for blobs. -/
  | notPayment
  /-- The payment is refused on its own. -/
  | invalidPayment (cause : PaymentError)
  /-- The payment declares another number of blobs than there are. -/
  | blobCountMismatch (declared supplied : Nat)
  /-- A blob may not be published. -/
  | invalidBlob (position : Nat) (cause : BlobError)
  /-- A blob is in another namespace than is declared. -/
  | namespaceMismatch (position : Nat)
  /-- A blob has another number of bytes than is declared. -/
  | sizeMismatch (position : Nat) (declared : UInt32) (actual : Nat)
  /-- A blob has another share version than is declared. -/
  | shareVersionMismatch (position : Nat)
  /-- There is no commitment to a blob. -/
  | commitment (position : Nat) (cause : InclusionError)
  /-- A blob has another commitment than is declared. -/
  | commitmentMismatch (position : Nat)
  /-- The transaction does not have exactly one signer. -/
  | multipleSigners (count : Nat)
  /-- The signer is not the account that pays. -/
  | signerMismatch
  /-- The gas limit is below the gas for the blobs. -/
  | insufficientGas (limit required : Nat)
deriving DecidableEq, Repr

/-- The wording of a refused blob transaction. -/
def BlobTxError.message : BlobTxError → String
  | .wire cause => s!"undecodable inner transaction: {cause.message}"
  | .notPayment => "blob transaction must carry exactly one MsgPayForBlobs"
  | .invalidPayment cause => cause.message
  | .blobCountMismatch declared supplied =>
    s!"MsgPayForBlobs declares {declared} blobs, envelope carries {supplied}"
  | .invalidBlob position cause => s!"blob {position}: {cause.message}"
  | .namespaceMismatch position => s!"blob {position} does not match the declared namespace"
  | .sizeMismatch position declared actual =>
    s!"blob {position} has {actual} bytes, {declared} declared"
  | .shareVersionMismatch position =>
    s!"blob {position} does not match the declared share version"
  | .commitment position cause => s!"blob {position}: {cause.message}"
  | .commitmentMismatch position =>
    s!"blob {position} does not match the declared share commitment"
  | .multipleSigners count => s!"MsgPayForBlobs must have a single signer, got {count}"
  | .signerMismatch => "transaction signer differs from the MsgPayForBlobs signer"
  | .insufficientGas limit required =>
    s!"gas limit {limit} is below the {required} needed for the blobs"

instance : ToString BlobTxError := ⟨BlobTxError.message⟩

/-- A blob transaction that may go into the square. -/
structure BlobCandidate where
  /-- The raw inner transaction. -/
  tx : Bytes
  /-- Its payment. -/
  payment : BlobPayment
  /-- The blobs it pays for. -/
  blobs : List Blob
deriving DecidableEq

namespace BlobCandidate

/-- The number of shares all blobs take. -/
def shareCount (candidate : BlobCandidate) : Nat :=
  candidate.blobs.foldr (fun blob rest => blob.shareCount + rest) 0

/-- Whether a blob is what its payment declares it to be. -/
def checkBlob (threshold : Nat) (blob : Blob) (declared : DeclaredBlob) (position : Nat) :
    Except BlobTxError Unit :=
  match blob.validate with
  | .error cause => .error (.invalidBlob position cause)
  | .ok () =>
    if blob.ns ≠ declared.ns then .error (.namespaceMismatch position)
    else if blob.size ≠ declared.size.toNat then
      .error (.sizeMismatch position declared.size blob.size)
    else if blob.shareVersion ≠ declared.shareVersion then
      .error (.shareVersionMismatch position)
    else
      match blobCommitment blob threshold with
      | .error cause => .error (.commitment position cause)
      | .ok commitment =>
        if commitment ≠ declared.commitment then .error (.commitmentMismatch position)
        else .ok ()

/-- Whether exactly the given account signs. -/
def checkSigners (signers : List Address) (signer : Address) : Except BlobTxError Unit :=
  match signers with
  | [only] => if only = signer then .ok () else .error .signerMismatch
  | _ => .error (.multipleSigners signers.length)

/-- Whether a payment declares exactly the given blobs. -/
def checkBlobs (threshold : Nat) (payment : BlobPayment) (blobs : List Blob) :
    Except BlobTxError Unit :=
  match payment.validate with
  | .error cause => .error (.invalidPayment cause)
  | .ok () =>
    if payment.blobCount ≠ blobs.length then
      .error (.blobCountMismatch payment.blobCount blobs.length)
    else
      (blobs.zip payment.declared).zipIdx.forM fun ((blob, declared), position) =>
        checkBlob threshold blob declared position

/-- The candidate of a blob transaction. -/
def ofBlobTx (blobTx : BlobTx) (consts : AppConsts) : Except BlobTxError BlobCandidate :=
  match Tx.ofBytes blobTx.tx with
  | .error cause => .error (.wire cause)
  | .ok tx =>
    match tx.payment? with
    | none => .error .notPayment
    | some payment => do
      checkBlobs consts.subtreeRootThreshold payment blobTx.blobs
      checkSigners tx.signers payment.signer
      let required := payment.gas consts.gasPerBlobByte
      if tx.gasLimit.toNat < required then .error (.insufficientGas tx.gasLimit.toNat required)
      else .ok ⟨blobTx.tx, payment, blobTx.blobs⟩

end BlobCandidate

/-- A transaction that may go into the square. -/
inductive Candidate where
  /-- A transaction without blobs. -/
  | ordinary (tx : Bytes)
  /-- A transaction that pays for blobs. -/
  | blob (content : BlobCandidate)
deriving DecidableEq

/-- Why a submitted transaction is dropped. -/
inductive DropReason where
  /-- It is larger than is allowed. -/
  | oversized (size limit : Nat)
  /-- It is an index wrapper, which only a proposer makes. -/
  | indexWrapped
  /-- It pays for blobs that it does not bring. -/
  | paysWithoutBlobs
  /-- It is no blob transaction although it is marked as one. -/
  | envelope (cause : EnvelopeError)
  /-- It is a blob transaction that is no candidate. -/
  | blobTx (cause : BlobTxError)
deriving DecidableEq, Repr

namespace Candidate

/-- Whether a candidate pays for blobs. -/
def paysForBlobs : Candidate → Bool
  | .ordinary _ => false
  | .blob _ => true

/-- The raw transaction without its blobs. -/
def bytes : Candidate → Bytes
  | .ordinary tx => tx
  | .blob content => content.tx

/-- The transaction of an ordinary candidate. -/
def ordinary? : Candidate → Option Bytes
  | .ordinary tx => some tx
  | .blob _ => none

/-- The content of a candidate that pays for blobs. -/
def blob? : Candidate → Option BlobCandidate
  | .ordinary _ => none
  | .blob content => some content

/-- The candidate of a blob transaction in its envelope. -/
def ofEnvelope (raw : Bytes) (consts : AppConsts) : Except DropReason Candidate :=
  match BlobTx.ofBytes raw with
  | .error cause => .error (.envelope cause)
  | .ok blobTx =>
    match BlobCandidate.ofBlobTx blobTx consts with
    | .error cause => .error (.blobTx cause)
    | .ok content => .ok (.blob content)

/-- The candidate of a submitted transaction. -/
def ofBytes (raw : Bytes) (consts : AppConsts) : Except DropReason Candidate :=
  match consts.maxTxBytes.filter (· < raw.length) with
  | some limit => .error (.oversized raw.length limit)
  | none =>
    if IndexWrapper.isMarked raw then .error .indexWrapped
    else if BlobTx.isMarked raw then ofEnvelope raw consts
    else if Tx.rawPaysForBlobs raw then .error .paysWithoutBlobs
    else .ok (.ordinary raw)

/-- The candidates among submitted transactions, in the order of their arrival. -/
def collect (raws : List Bytes) (consts : AppConsts) : List Candidate :=
  raws.filterMap fun raw => (ofBytes raw consts).toOption

end Candidate

end DataSquare
