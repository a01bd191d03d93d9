import DataSquare.Blob
import DataSquare.Hash.Blake2b

/-!
# Transactions

A transaction is a list of signers and messages with a fee, a gas limit and a memo. The square
looks at nothing but the messages that pay for blobs: each declares the namespace, size,
commitment and share version of every blob it pays for, in four lists of one length.
-/
namespace DataSquare

/-- The address of an account. -/
abbrev Address := FixedBytes 20

/-- A transfer between accounts. -/
structure Transfer where
  /-- The account debited. -/
  sender : Address
  /-- The account credited. -/
  recipient : Address
  /-- The amount transferred. -/
  amount : UInt64
deriving DecidableEq

/-- A payment for blobs. -/
structure BlobPayment where
  /-- The account that pays. -/
  signer : Address
  /-- The namespace of each blob. -/
  namespaces : List Namespace
  /-- The number of bytes of each blob. -/
  blobSizes : List UInt32
  /-- The commitment to each blob. -/
  commitments : List Digest
  /-- The share version of each blob. -/
  shareVersions : List UInt8
deriving DecidableEq

/-- Why a payment is refused on its own. -/
inductive PaymentError where
  /-- It pays for no blob. -/
  | noBlobs
  /-- Its four lists do not have one length. -/
  | mismatchedLengths (namespaces sizes commitments versions : Nat)
  /-- It declares a blob without data. -/
  | zeroBlobSize (position : Nat)
  /-- It declares a version that cannot be read. -/
  | unsupportedShareVersion (version : UInt8)
  /-- It declares a namespace that is not one for blobs. -/
  | namespaceError (cause : NamespaceError)
deriving DecidableEq, Repr

/-- The wording of a refused payment. -/
def PaymentError.message : PaymentError → String
  | .noBlobs => "MsgPayForBlobs pays for no blobs"
  | .mismatchedLengths namespaces sizes commitments versions =>
    s!"MsgPayForBlobs field lengths differ: {namespaces} namespaces, {sizes} sizes, " ++
      s!"{commitments} commitments, {versions} share versions"
  | .zeroBlobSize position => s!"blob {position} has a declared size of zero"
  | .unsupportedShareVersion version => s!"unsupported share version {version}"
  | .namespaceError cause => cause.message

instance : ToString PaymentError := ⟨PaymentError.message⟩

/-- What a payment declares about one blob. -/
structure DeclaredBlob where
  /-- Its namespace. -/
  ns : Namespace
  /-- Its number of bytes. -/
  size : UInt32
  /-- The commitment to it. -/
  commitment : Digest
  /-- Its share version. -/
  shareVersion : UInt8
deriving DecidableEq

namespace BlobPayment

/-- The number of blobs paid for. -/
def blobCount (payment : BlobPayment) : Nat := payment.namespaces.length

/-- The four lists as one list of declarations, as long as the shortest of them. -/
def declared (payment : BlobPayment) : List DeclaredBlob :=
  List.zipWith (fun (ns, size) (commitment, version) => ⟨ns, size, commitment, version⟩)
    (payment.namespaces.zip payment.blobSizes) (payment.commitments.zip payment.shareVersions)

/-- The checks on a payment that need nothing else. -/
def validate (payment : BlobPayment) : Except PaymentError Unit :=
  let count := payment.blobCount
  if count = 0 then .error .noBlobs
  else if payment.blobSizes.length ≠ count ∨ payment.commitments.length ≠ count ∨
      payment.shareVersions.length ≠ count then
    .error (.mismatchedLengths count payment.blobSizes.length payment.commitments.length
      payment.shareVersions.length)
  else match payment.namespaces.forM Namespace.validateForBlob with
    | .error cause => .error (.namespaceError cause)
    | .ok () =>
      match payment.blobSizes.findIdx? (· == 0) with
      | some position => .error (.zeroBlobSize position)
      | none =>
        match payment.shareVersions.find? (fun version => !supportedShareVersions.contains version)
        with
        | some version => .error (.unsupportedShareVersion version)
        | none => .ok ()

/-- The gas for the blobs: every share they take is charged in full. -/
def gas (payment : BlobPayment) (gasPerBlobByte : UInt32) : Nat :=
  payment.blobSizes.foldr (fun size shares => sparseSharesNeeded size.toNat + shares) 0 *
    shareSize * gasPerBlobByte.toNat

end BlobPayment

/-- A message of a transaction. -/
inductive Message where
  /-- A transfer. -/
  | transfer (content : Transfer)
  /-- A payment for blobs. -/
  | payment (content : BlobPayment)
deriving DecidableEq

/-- Whether a message pays for blobs. -/
def Message.isPayment : Message → Bool
  | .transfer _ => false
  | .payment _ => true

/-- A transaction. -/
structure Tx where
  /-- The accounts that sign it. -/
  signers : List Address
  /-- What it does. -/
  messages : List Message
  /-- What is paid for it. -/
  fee : UInt64
  /-- The most gas it may use. -/
  gasLimit : UInt64
  /-- A free text. -/
  memo : String
deriving DecidableEq

namespace Tx

/-- The payment of a transaction whose only message is one. -/
def payment? (tx : Tx) : Option BlobPayment :=
  match tx.messages with
  | [.payment content] => some content
  | _ => none

/-- Whether some message pays for blobs. -/
def paysForBlobs (tx : Tx) : Bool := tx.messages.any Message.isPayment

end Tx

/-- The digest that names an encoded transaction. -/
def txHash (raw : Bytes) : Digest := Blake2b.digest raw

end DataSquare
