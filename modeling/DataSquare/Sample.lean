import DataSquare.Mempool.Candidate

/-!
# Sample data

Bytes, accounts, namespaces and transactions to try a square with. All of them follow from a few
numbers or a text.
-/
namespace DataSquare.Sample

/-- Bytes of a linear congruential sequence, after those already drawn. -/
def drawBytes : Nat → UInt64 → Bytes → Bytes
  | 0, _, earlier => earlier.reverse
  | count + 1, state, earlier =>
    let next := state * 6364136223846793005 + 1442695040888963407
    drawBytes count next ((next >>> 56).toUInt8 :: earlier)

/-- Bytes that look random. -/
def bytes (count : Nat) (seed : UInt64) : Bytes := drawBytes count seed []

/-- The account with a number. -/
def signer (number : UInt8) : Address := FixedBytes.replicate 20 number

/-- The namespace for users named by a text of at most ten bytes. -/
def ns (name : String) : Except NamespaceError Namespace :=
  Namespace.ofUserId (FixedBytes.fit 10 (Text.toUtf8 name)).bytes

/-- A transfer from one account to the next. -/
def transferTx (seed : UInt8) (memoLength : Nat) : Tx where
  signers := [signer seed]
  messages := [.transfer ⟨signer seed, signer (seed + 1), seed.toUInt64⟩]
  fee := 1
  gasLimit := 100000
  memo := "".pushn 'm' memoLength

/-- What an account declares to publish blobs. -/
def payment (signer : Address) (blobs : List Blob) (threshold : Nat) :
    Except InclusionError BlobPayment :=
  (blobs.mapM fun blob => blobCommitment blob threshold).map fun commitments =>
    { signer
      namespaces := blobs.map Blob.ns
      blobSizes := blobs.map fun blob => UInt32.ofNat blob.size
      commitments
      shareVersions := blobs.map Blob.shareVersion }

/-- A transaction with which an account pays for blobs. -/
def payingTx (signer : Address) (blobs : List Blob) (consts : AppConsts) :
    Except InclusionError Tx :=
  (payment signer blobs consts.subtreeRootThreshold).map fun payment =>
    { signers := [signer]
      messages := [.payment payment]
      fee := 1
      gasLimit := UInt64.ofNat (payment.gas consts.gasPerBlobByte + 50000)
      memo := "" }

/-- A transaction with the payment changed that it starts with, if it starts with one. -/
def withPayment (tx : Tx) (change : BlobPayment → BlobPayment) : Tx :=
  match tx.messages with
  | .payment content :: rest => { tx with messages := .payment (change content) :: rest }
  | _ => tx

end DataSquare.Sample
