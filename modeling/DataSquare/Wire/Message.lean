import DataSquare.Block
import DataSquare.Consensus
import DataSquare.Wire.Format

/-!
# Encoded transactions, envelopes and blocks

The formats of what users submit and what blocks hold, with their readers and writers.
-/
namespace DataSquare

namespace Format

/-- A transfer. -/
def transfer : Format Transfer :=
  (pair (fixed 20) (pair (fixed 20) word64)).map
    (fun (sender, recipient, amount) => ⟨sender, recipient, amount⟩)
    (fun value => (value.sender, value.recipient, value.amount))

/-- A payment for blobs. -/
def payment : Format BlobPayment :=
  (pair (fixed 20) (pair (list ns) (pair (list word32) (pair (list (fixed 32)) (list byte))))).map
    (fun (signer, namespaces, sizes, commitments, versions) =>
      ⟨signer, namespaces, sizes, commitments, versions⟩)
    (fun value => (value.signer, value.namespaces, value.blobSizes, value.commitments,
      value.shareVersions))

/-- A message of a transaction. -/
def message : Format Message :=
  (either transfer payment).map
    (fun
      | .inl content => .transfer content
      | .inr content => .payment content)
    (fun
      | .transfer content => .inl content
      | .payment content => .inr content)

/-- A transaction. -/
def tx : Format Tx :=
  (pair (list (fixed 20)) (pair (list message) (pair word64 (pair word64 text)))).map
    (fun (signers, messages, fee, gasLimit, memo) => ⟨signers, messages, fee, gasLimit, memo⟩)
    (fun value => (value.signers, value.messages, value.fee, value.gasLimit, value.memo))

/-- A blob. -/
def blob : Format Blob :=
  (pair ns (pair byteString byte)).map
    (fun (ns, data, version) => ⟨ns, data, version⟩)
    (fun value => (value.ns, value.data, value.shareVersion))

/-- A blob transaction. -/
def blobTx : Format BlobTx :=
  marked BlobTx.marker ((pair byteString (list blob)).map
    (fun (tx, blobs) => ⟨tx, blobs⟩) (fun value => (value.tx, value.blobs)))

/-- An index wrapper. -/
def indexWrapper : Format IndexWrapper :=
  marked IndexWrapper.marker ((pair byteString (list word32)).map
    (fun (tx, indexes) => ⟨tx, indexes⟩) (fun value => (value.tx, value.shareIndexes)))

/-- The contents of a block. -/
def blockData : Format BlockData :=
  (pair (list byteString) (pair (list blob) word64)).map
    (fun (txs, blobs, squareSize) => ⟨txs, blobs, squareSize⟩)
    (fun value => (value.txs, value.blobs, value.squareSize))

/-- The header of a block. -/
def blockHeader : Format BlockHeader :=
  (pair word64 (pair (fixed 20) (fixed 32))).map
    (fun (height, proposer, dataHash) => ⟨height, proposer, dataHash⟩)
    (fun value => (value.height, value.proposer, value.dataHash))

/-- A block. -/
def block : Format Block :=
  (pair blockHeader blockData).map
    (fun (header, data) => ⟨header, data⟩) (fun value => (value.header, value.data))

/-- A number of the domain, written with 64 bits. -/
def natural : Format Nat := word64.map UInt64.toNat UInt64.ofNat

/-- A version of the protocol. -/
def appVersion : Format AppVersion :=
  (either nothing nothing).map
    (fun
      | .inl _ => .v1
      | .inr _ => .v3)
    (fun
      | .v1 => .inl ()
      | .v3 => .inr ())

/-- The parameters of consensus. -/
def appConsts : Format AppConsts :=
  (pair appVersion
    (pair natural (pair natural (pair natural (pair word32 (optional natural)))))).map
    (fun (version, least, largest, threshold, gas, maxTx) =>
      ⟨version, least, largest, threshold, gas, maxTx⟩)
    (fun value => (value.version, value.minSquareSize, value.maxSquareSize,
      value.subtreeRootThreshold, value.gasPerBlobByte, value.maxTxBytes))

end Format

namespace Tx

/-- Reads a transaction. -/
def ofBytes (raw : Bytes) : Except WireError Tx := Wire.deserialize Format.tx raw

/-- Writes a transaction. -/
def toBytes (tx : Tx) : Except WireError Bytes := Wire.serialize Format.tx tx

/-- Whether a byte string decodes to a transaction that pays for blobs. -/
def rawPaysForBlobs (raw : Bytes) : Bool :=
  match ofBytes raw with
  | .ok tx => tx.paysForBlobs
  | .error _ => false

end Tx

/-- Why a byte string is no envelope. -/
inductive EnvelopeError where
  /-- It does not start with the marker. -/
  | missingMarker
  /-- It is a blob transaction without blobs. -/
  | noBlobs
  /-- It does not decode, or would be too large. -/
  | wire (cause : WireError)
deriving DecidableEq, Repr

/-- The wording of an envelope error. -/
def EnvelopeError.message : EnvelopeError → String
  | .missingMarker => "missing envelope marker"
  | .noBlobs => "blob transaction carries no blobs"
  | .wire cause => cause.message

instance : ToString EnvelopeError := ⟨EnvelopeError.message⟩

/-- Reads a blob transaction, which holds at least one blob. -/
def BlobTx.ofBytes (raw : Bytes) : Except EnvelopeError BlobTx :=
  if isMarked raw then
    match Wire.deserialize Format.blobTx raw with
    | .error cause => .error (.wire cause)
    | .ok blobTx => if blobTx.blobs.isEmpty then .error .noBlobs else .ok blobTx
  else .error .missingMarker

/-- Writes a blob transaction. -/
def BlobTx.toBytes (blobTx : BlobTx) : Except EnvelopeError Bytes :=
  (Wire.serialize Format.blobTx blobTx).mapError .wire

/-- Reads an index wrapper. -/
def IndexWrapper.ofBytes (raw : Bytes) : Except EnvelopeError IndexWrapper :=
  if isMarked raw then (Wire.deserialize Format.indexWrapper raw).mapError .wire
  else .error .missingMarker

/-- Writes an index wrapper. -/
def IndexWrapper.toBytes (wrapper : IndexWrapper) : Except EnvelopeError Bytes :=
  (Wire.serialize Format.indexWrapper wrapper).mapError .wire

/-- Reads the contents of a block. -/
def BlockData.ofBytes (raw : Bytes) : Except WireError BlockData :=
  Wire.deserialize Format.blockData raw

/-- Writes the contents of a block. -/
def BlockData.toBytes (data : BlockData) : Except WireError Bytes :=
  Wire.serialize Format.blockData data

end DataSquare
