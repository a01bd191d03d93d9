import DataSquare.Mempool.Candidate

/-!
# Placing blobs

Blobs are visited in the order of their namespaces, those of one namespace in the order of their
transactions, and each is placed at the first multiple of its alignment from the end of the last
one on. A blob that runs past the end of the square takes its whole transaction out; the blobs of
that transaction that were already placed leave a gap. Nothing is ever moved, so every node finds
the same places. Places are machine numbers, so there is no layout when a multiple of the alignment
needs more than 64 bits.
-/
namespace DataSquare

/-- The multiples at which a blob may start. -/
def blobAlignment (shareCount squareSize : Nat) : Nat := min (ceilPowerOfTwo shareCount) squareSize

/-- The multiples at which a blob may start, if its shares round to a power of two of 64 bits. -/
def blobAlignment? (shareCount squareSize : Nat) : Option Nat :=
  (ceilPowerOfTwo? shareCount).map (min · squareSize)

/-- The first multiple of an alignment from a position on, if the alignment is not zero and the
multiple fits 64 bits. -/
def nextAligned? (cursor alignment : Nat) : Option Nat :=
  if alignment = 0 then none else word? (ceilDiv cursor alignment * alignment)

/-- The first share from a position on at which a blob may start. -/
def firstPlace? (squareSize cursor shareCount : Nat) : Option Nat :=
  (blobAlignment? shareCount squareSize).bind (nextAligned? cursor)

/-- A blob that waits for its place. -/
structure Slot where
  /-- The position of its transaction among the blob transactions. -/
  tx : Nat
  /-- Its position in the transaction. -/
  position : Nat
  /-- The blob. -/
  blob : Blob
deriving DecidableEq

/-- What becomes of a blob. -/
inductive Placement where
  /-- It starts at a share. -/
  | placed (start : Nat)
  /-- It would run past the end of the square from a share on. -/
  | overflow (start : Nat)
  /-- Its transaction is already out. -/
  | skipped
deriving DecidableEq

namespace Placement

/-- The share at which a placed blob starts. -/
def start? : Placement → Option Nat
  | .placed start => some start
  | _ => none

/-- Whether a blob takes its transaction out. -/
def isOverflow : Placement → Bool
  | .overflow _ => true
  | _ => false

end Placement

/-- A slot with what becomes of it. -/
structure Visit where
  /-- The slot. -/
  slot : Slot
  /-- What becomes of it. -/
  placement : Placement
deriving DecidableEq

/-- A candidate with the shares at which its blobs start. -/
structure PlacedTx where
  /-- The candidate. -/
  candidate : BlobCandidate
  /-- The first share of each of its blobs. -/
  shareIndexes : List UInt32
deriving DecidableEq

/-- The raw index wrapper of a placed candidate. -/
def PlacedTx.wrap (placed : PlacedTx) : Except EnvelopeError Bytes :=
  IndexWrapper.toBytes ⟨placed.candidate.tx, placed.shareIndexes⟩

/-- Candidates with places for their blobs. -/
structure Layout where
  /-- The width of the square. -/
  squareSize : Nat
  /-- The first share that a blob may take. -/
  nonReservedStart : Nat
  /-- The ordinary transactions. -/
  ordinary : List Bytes
  /-- The blob transactions that are placed, in the order of arrival. -/
  placed : List PlacedTx
  /-- The placed blobs in the order of the square. -/
  blobs : List Blob
  /-- The blob transactions that are out, in the order of arrival. -/
  removed : List BlobCandidate
deriving DecidableEq

namespace Layout

/-- The slots of blob transactions, transaction by transaction. -/
def slots (candidates : List BlobCandidate) : List Slot :=
  candidates.zipIdx.flatMap fun (candidate, tx) =>
    candidate.blobs.zipIdx.map fun (blob, position) => ⟨tx, position, blob⟩

/-- The slots in the order in which they are visited. -/
def visitOrder (candidates : List BlobCandidate) : List Slot :=
  (slots candidates).mergeSort fun left right => decide (left.blob.ns ≤ right.blob.ns)

/-- Whether shares from `start` on hold `shareCount` more in a square. A share index has 32 bits, and
only then the number of shares of the square is taken, which has to fit 64 bits. The end of a blob
that has an alignment fits them. -/
def hasRoom? (squareSize start shareCount : Nat) : Option Bool :=
  if start < UInt32.size then
    (word? (squareSize * squareSize)).map fun capacity => decide (start + shareCount ≤ capacity)
  else some false

/-- Visits slots in order, with the transactions that are already out. A square without width has
no place to start at, and neither has a blob whose first place needs more than 64 bits. -/
def visit (squareSize : Nat) : Nat → List Nat → List Slot → Option (List Visit)
  | _, _, [] => some []
  | cursor, out, slot :: rest =>
    if out.contains slot.tx then
      (visit squareSize cursor out rest).map (⟨slot, .skipped⟩ :: ·)
    else do
      let shareCount := slot.blob.shareCount
      let start ← firstPlace? squareSize cursor shareCount
      if ← hasRoom? squareSize start shareCount then
        (visit squareSize (start + shareCount) out rest).map (⟨slot, .placed start⟩ :: ·)
      else (visit squareSize cursor (slot.tx :: out) rest).map (⟨slot, .overflow start⟩ :: ·)

/-- The transactions that are out after all visits. -/
def outOf (visits : List Visit) : List Nat :=
  (visits.filter fun one => one.placement.isOverflow).map fun one => one.slot.tx

/-- The shares at which the blobs of a transaction start, in the order of the blobs. -/
def shareIndexes (visits : List Visit) (tx blobCount : Nat) : List UInt32 :=
  (List.range blobCount).filterMap fun position =>
    (visits.find? fun one =>
      one.slot.tx = tx && one.slot.position = position && one.placement.start?.isSome).bind
      fun one => one.placement.start?.map UInt32.ofNat

/-- The layout that visits of all slots of blob transactions lead to. -/
def ofVisits (squareSize nonReservedStart : Nat) (ordinary : List Bytes)
    (candidates : List BlobCandidate) (visits : List Visit) : Layout :=
  let out := outOf visits
  { squareSize
    nonReservedStart
    ordinary
    placed := (candidates.zipIdx.filter fun (_, tx) => !out.contains tx).map fun (candidate, tx) =>
      ⟨candidate, shareIndexes visits tx candidate.blobs.length⟩
    blobs := (visits.filter fun one =>
      one.placement.start?.isSome && !out.contains one.slot.tx).map fun one => one.slot.blob
    removed := (candidates.zipIdx.filter fun (_, tx) => out.contains tx).map Prod.fst }

/-- The visits of all blobs of candidates. -/
def visits? (squareSize nonReservedStart : Nat) (candidates : List Candidate) :
    Option (List Visit) :=
  visit squareSize nonReservedStart [] (visitOrder (candidates.filterMap Candidate.blob?))

/-- Places all blobs of candidates. There is no layout when a blob waits for a place in a square
without width or behind 64 bits. -/
def finalize? (squareSize nonReservedStart : Nat) (candidates : List Candidate) : Option Layout :=
  (visits? squareSize nonReservedStart candidates).map
    (ofVisits squareSize nonReservedStart (candidates.filterMap Candidate.ordinary?)
      (candidates.filterMap Candidate.blob?))

/-- The transactions of the block: the ordinary ones and then the index wrappers. -/
def blockTxs (layout : Layout) : Except EnvelopeError (List Bytes) :=
  (layout.placed.mapM PlacedTx.wrap).map (layout.ordinary ++ ·)

/-- The contents of the block. -/
def blockData (layout : Layout) : Except EnvelopeError BlockData :=
  layout.blockTxs.map fun txs => ⟨txs, layout.blobs, UInt64.ofNat layout.squareSize⟩

end Layout

end DataSquare
