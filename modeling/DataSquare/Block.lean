import DataSquare.Tx

/-!
# Blocks and envelopes

The contents of a block as they are proposed: its transactions in the order of the square, its
blobs in the order of their namespaces, and the width of the square before extension. The header
carries the root that commits to the square.

Two envelopes carry a raw transaction. Users submit a blob transaction, which holds the blobs it
pays for; a block holds an index wrapper, which says at which share each blob was placed. Each
starts with four marker bytes, so that it is told from a plain transaction without decoding.
-/
namespace DataSquare

/-- The contents of a block. -/
structure BlockData where
  /-- Ordinary transactions and index wrappers. -/
  txs : List Bytes
  /-- The blobs by namespace. -/
  blobs : List Blob
  /-- The width of the square before extension. -/
  squareSize : UInt64
deriving DecidableEq

/-- The header of a block. -/
structure BlockHeader where
  /-- The position in the chain. -/
  height : UInt64
  /-- The account that proposes the block. -/
  proposer : Address
  /-- The root that commits to the square. -/
  dataHash : Digest
deriving DecidableEq

/-- A proposed block. -/
structure Block where
  /-- The header. -/
  header : BlockHeader
  /-- The contents. -/
  data : BlockData
deriving DecidableEq

/-- A transaction with the blobs it pays for. -/
structure BlobTx where
  /-- The raw transaction. -/
  tx : Bytes
  /-- The blobs in the order of the payment. -/
  blobs : List Blob
deriving DecidableEq

/-- A transaction with the shares at which its blobs start. -/
structure IndexWrapper where
  /-- The raw transaction. -/
  tx : Bytes
  /-- The first share of each blob. -/
  shareIndexes : List UInt32
deriving DecidableEq

/-- The bytes in front of a blob transaction, which read `BLOB`. -/
def BlobTx.marker : Bytes := [0x42, 0x4c, 0x4f, 0x42]

/-- The bytes in front of an index wrapper, which read `INDX`. -/
def IndexWrapper.marker : Bytes := [0x49, 0x4e, 0x44, 0x58]

/-- Whether a byte string starts with the marker of a blob transaction. -/
def BlobTx.isMarked (raw : Bytes) : Bool := raw.take 4 == marker

/-- Whether a byte string starts with the marker of an index wrapper. -/
def IndexWrapper.isMarked (raw : Bytes) : Bool := raw.take 4 == marker

end DataSquare
