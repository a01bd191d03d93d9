import DataSquare.Proofs.Mempool.Candidate
import DataSquare.Proofs.Mempool.Usage
import DataSquare.Proofs.Proposal.Payments
import DataSquare.Proofs.Square.Commitment
import DataSquare.Proofs.Square.Gaps
import DataSquare.Proofs.Wire.Message

/-!
# The block of a layout

The index wrappers of a settled layout are written and read back, the transactions take no more
shares than were kept free for them, and the share indexes in order are where the blobs of the
layout start. So the contents of the block make a square, of whatever transactions went out.
-/
namespace DataSquare

/-- The stream of units is as long as each of them is with its length. -/
theorem Compact.length_stream (units : List Bytes) : (stream units).length =
    (units.map fun unit => Usage.delimitedLength unit.length).sum := by
  induction units with
  | nil => rfl
  | cons unit rest ih =>
    rw [stream_cons, List.length_append, ih, List.map_cons, List.sum_cons, length_delimited,
      Usage.delimitedLength, Nat.add_comm unit.length]

/-- The index wrapper of a transaction that pays for a blob of one byte has 206 bytes. -/
theorem BlobCandidate.wrappedLength_single (ns : Namespace) (commitment : Digest) :
    (BlobCandidate.single ns commitment).wrappedLength = 206 := by
  rw [wrappedLength, length_single]
  rfl

namespace Usage

/-- Candidates take the bytes of the ordinary ones, and of the index wrappers of the others. -/
theorem bytes_ofCandidates (candidates : List Candidate) :
    (ofCandidates candidates).txBytes = ((candidates.filterMap Candidate.ordinary?).map
      fun tx => delimitedLength tx.length).sum ∧
    (ofCandidates candidates).wrapperBytes = ((candidates.filterMap Candidate.blob?).map
      fun content => delimitedLength content.wrappedLength).sum := by
  rw [ofCandidates_eq]
  dsimp only
  induction candidates with
  | nil => exact ⟨rfl, rfl⟩
  | cons candidate rest ih =>
    obtain ⟨txs, wrappers⟩ := ih
    rw [List.map_cons, List.map_cons, List.sum_cons, List.sum_cons, txs, wrappers]
    cases candidate with
    | ordinary tx => exact ⟨rfl, Nat.zero_add _⟩
    | blob content => exact ⟨Nat.zero_add _, rfl⟩

/-- A short ordinary transaction takes its bytes and one for its length. -/
theorem contribution_ordinary_of_lt {tx : Bytes} (short : tx.length < 128) :
    contribution (.ordinary tx) = ⟨tx.length + 1, 0, 0⟩ := by
  rw [contribution, delimitedLength_of_lt short]

/-- The index wrapper of a transaction that pays for a blob of one byte takes 208 bytes. -/
theorem delimitedLength_wrappedLength_single (ns : Namespace) (commitment : Digest) :
    delimitedLength (BlobCandidate.single ns commitment).wrappedLength = 208 := by
  rw [BlobCandidate.wrappedLength_single]
  simp [delimitedLength, Varint.size]

/-- A transaction that pays for a blob of one byte takes 208 bytes of index wrappers and a share. -/
theorem contribution_single (ns : Namespace) (commitment : Digest) :
    contribution (.blob (BlobCandidate.single ns commitment)) = ⟨0, 208, 1⟩ := by
  rw [contribution, delimitedLength_wrappedLength_single]
  rfl

end Usage

namespace Square

/-- Stacked blobs are placed, and end inside the square. -/
theorem exists_blobShares {squareSize cursor : Nat} {entries : List (Nat × Slot)}
    (stacked : Stacked squareSize cursor entries)
    (written : ∀ entry ∈ entries, entry.2.blob.IsWritable ∧ entry.2.blob.data ≠ [])
    (inside : cursor ≤ squareSize * squareSize) (previous : Option Namespace) :
    ∃ shares, blobShares (squareSize * squareSize) cursor previous
        (entries.map fun entry => (entry.1, entry.2.blob)) = .ok shares ∧
      cursor + shares.length ≤ squareSize * squareSize := by
  refine (exists_blobShares_iff fun entry member => ?_).mpr
    (spaced_of_stacked stacked inside (paddingSpace previous))
  obtain ⟨slot, listed, rfl⟩ := List.mem_map.mp member
  exact written slot listed

end Square

namespace Layout

/-- The contents of the block of a layout are its ordinary transactions, the index wrappers of the
others, and its blobs. -/
theorem blockData_eq_ok {layout : Layout} {data : BlockData} : layout.blockData = .ok data ↔
    ∃ wrappers, layout.placed.mapM PlacedTx.wrap = .ok wrappers ∧
      data = ⟨layout.ordinary ++ wrappers, layout.blobs, UInt64.ofNat layout.squareSize⟩ := by
  rw [blockData, blockTxs, map_eq_ok]
  constructor
  · rintro ⟨_, listed, rfl⟩
    obtain ⟨wrappers, written, rfl⟩ := map_eq_ok.mp listed
    exact ⟨wrappers, written, rfl⟩
  · rintro ⟨wrappers, written, rfl⟩
    exact ⟨_, map_eq_ok.mpr ⟨wrappers, written, rfl⟩, rfl⟩

namespace Settled

variable {layout : Layout} {candidates : List BlobCandidate} {entries : List (Nat × Slot)}
  (settled : layout.Settled candidates entries)
include settled

/-- The index wrappers are written exactly when each of them is small enough. -/
theorem exists_wrappers_iff : (∃ wrappers, layout.placed.mapM PlacedTx.wrap = .ok wrappers) ↔
    ∀ placed ∈ layout.placed, placed.candidate.wrappedLength ≤ Wire.sizeLimit := by
  have small : ∀ placed ∈ layout.placed, (∃ raw, placed.wrap = .ok raw) ↔
      placed.candidate.wrappedLength ≤ Wire.sizeLimit := by
    intro placed member
    simp only [PlacedTx.wrap, IndexWrapper.toBytes_eq_ok, (settled.starts placed member).1,
      exists_and_left, exists_eq, and_true, BlobCandidate.wrappedLength]
  constructor
  · rintro ⟨wrappers, written⟩ placed member
    have each := List.forall₂_iff_get.mp (mapM_eq_ok.mp written)
    obtain ⟨position, inside, rfl⟩ := List.mem_iff_getElem.mp member
    exact (small _ member).mp ⟨_, each.2 position inside (each.1 ▸ inside)⟩
  · intro each
    exact exists_mapM_eq_ok fun placed member => (small placed member).mpr (each placed member)

variable {wrappers : List Bytes} (written : layout.placed.mapM PlacedTx.wrap = .ok wrappers)
include written

/-- The index wrappers are marked, read back, and as long as is counted for them. -/
theorem wrappers_spec :
    List.Forall₂ (fun placed raw => IndexWrapper.isMarked raw = true ∧
      IndexWrapper.ofBytes raw = .ok ⟨placed.candidate.tx, placed.shareIndexes⟩ ∧
      raw.length = placed.candidate.wrappedLength) layout.placed wrappers := by
  have each := mapM_eq_ok.mp written
  refine (List.forall₂_and_left _ _).mpr ⟨fun _ member => member, each⟩ |>.imp ?_
  rintro placed raw ⟨member, wrapped⟩
  obtain ⟨marked, back, length⟩ := IndexWrapper.ofBytes_of_toBytes wrapped
  dsimp only at length
  rw [(settled.starts placed member).1] at length
  exact ⟨marked, back, length⟩

/-- The index wrappers are as long as is counted for them. -/
theorem map_length_wrappers : wrappers.map List.length =
    layout.placed.map fun placed => placed.candidate.wrappedLength := by
  have each := settled.wrappers_spec written
  clear written settled
  generalize layout.placed = placed at each ⊢
  induction each with
  | nil => rfl
  | cons head _ ih => rw [List.map_cons, List.map_cons, ih, head.2.2]

/-- The stream of the index wrappers is as long as is counted for the placed transactions. -/
theorem length_stream : (Compact.stream wrappers).length =
    ((layout.placed.map PlacedTx.candidate).map fun candidate =>
      Usage.delimitedLength candidate.wrappedLength).sum := by
  have lengths := congrArg (List.map Usage.delimitedLength) (settled.map_length_wrappers written)
  rw [List.map_map, List.map_map] at lengths
  rw [Compact.length_stream, List.map_map]
  exact congrArg List.sum lengths

variable (plain : ∀ tx ∈ layout.ordinary, IndexWrapper.isMarked tx = false)
include plain

/-- When no ordinary transaction is marked, those of the block are told apart again. -/
theorem kinds_of_written : TxShares.ordinaryTxs (layout.ordinary ++ wrappers) = layout.ordinary ∧
    TxShares.wrappedTxs (layout.ordinary ++ wrappers) = wrappers := by
  have marked : ∀ raw ∈ wrappers, IndexWrapper.isMarked raw = true := by
    intro raw member
    obtain ⟨position, inside, rfl⟩ := List.mem_iff_getElem.mp member
    have each := List.forall₂_iff_get.mp (settled.wrappers_spec written)
    exact (each.2 position (each.1 ▸ inside) inside).1
  rw [TxShares.ordinaryTxs, TxShares.wrappedTxs, List.filter_append, List.filter_append]
  constructor
  · rw [List.filter_eq_self.mpr fun tx member => by rw [plain tx member]; rfl,
      List.filter_eq_nil_iff.mpr fun raw member => by
        rw [marked raw member]
        exact Bool.false_ne_true,
      List.append_nil]
  · rw [List.filter_eq_nil_iff.mpr fun tx member => by
        rw [plain tx member]
        exact Bool.false_ne_true,
      List.filter_eq_self.mpr marked, List.nil_append]

/-- The index wrappers of the block are read back as those of the placed transactions. -/
theorem wrapped_of_written :
    (TxShares.wrappedTxs (layout.ordinary ++ wrappers)).mapM IndexWrapper.ofBytes =
      .ok (layout.placed.map fun placed => ⟨placed.candidate.tx, placed.shareIndexes⟩) := by
  rw [(settled.kinds_of_written written plain).2, mapM_eq_ok, List.forall₂_map_right_iff]
  exact ((settled.wrappers_spec written).imp fun _ _ spec => spec.2.1).flip

/-- The index wrappers declare the share indexes of the layout. -/
theorem declaredIndexes_of_written : TxShares.declaredIndexes (layout.ordinary ++ wrappers) =
    .ok (layout.placed.flatMap PlacedTx.shareIndexes) :=
  map_eq_ok.mpr ⟨_, settled.wrapped_of_written written plain, by rw [List.flatMap_map]⟩

/-- The transactions of the block are written as shares exactly when the streams of both kinds are
short enough, with the share indexes of the layout and as many shares as the streams take. -/
theorem ofTxs_eq_ok_iff {txShares : TxShares} :
    TxShares.ofTxs (layout.ordinary ++ wrappers) = .ok txShares ↔
      (Compact.stream layout.ordinary).length < UInt32.size ∧
        (Compact.stream wrappers).length < UInt32.size ∧
        txShares = ⟨Compact.sequenceOf Namespace.transaction layout.ordinary,
          Compact.sequenceOf Namespace.payForBlob wrappers,
          layout.placed.flatMap PlacedTx.shareIndexes⟩ := by
  obtain ⟨ordinary, wrapped⟩ := settled.kinds_of_written written plain
  rw [TxShares.ofTxs_eq_ok, settled.declaredIndexes_of_written written plain, ordinary, wrapped]
  simp [TxShares.ofStreams, ordinary, wrapped]

end Settled

/-- What a proposer knows of a layout of candidates before it makes the block. -/
structure Ready (layout : Layout) (candidates : List BlobCandidate) (threshold : Nat)
    (entries : List (Nat × Slot)) : Prop where
  /-- The layout is settled. -/
  settled : layout.Settled candidates entries
  /-- All is known of the ordinary transactions. -/
  ordinary : ∀ tx ∈ layout.ordinary, (Candidate.ordinary tx).Sound threshold
  /-- All is known of the blob transactions. -/
  sound : ∀ candidate ∈ candidates, candidate.Sound threshold
  /-- The ordinary transactions are not too long. -/
  txBytes : (layout.ordinary.map fun tx => Usage.delimitedLength tx.length).sum ≤ 7831552
  /-- The index wrappers are not too long. -/
  wrapperBytes : (candidates.map fun candidate =>
    Usage.delimitedLength candidate.wrappedLength).sum ≤ 7831552
  /-- Enough shares are kept free for transactions. -/
  reserved : compactSharesNeeded ((layout.ordinary.map fun tx =>
      Usage.delimitedLength tx.length).sum) +
    compactSharesNeeded ((candidates.map fun candidate =>
      Usage.delimitedLength candidate.wrappedLength).sum) ≤ layout.nonReservedStart
  /-- These shares are in the square. -/
  inside : layout.nonReservedStart ≤ layout.squareSize * layout.squareSize

namespace Ready

variable {layout : Layout} {candidates : List BlobCandidate} {threshold : Nat}
  {entries : List (Nat × Slot)} (ready : layout.Ready candidates threshold entries)
include ready

/-- A placed transaction is one of the candidates. -/
theorem mem_candidates {placed : PlacedTx} (member : placed ∈ layout.placed) :
    placed.candidate ∈ candidates :=
  ready.settled.placed.subset (List.mem_map_of_mem member)

/-- The blobs of a layout may be published and are written. -/
theorem valid {blob : Blob} (member : blob ∈ layout.blobs) :
    blob.validate = .ok () ∧ blob.IsWritable := by
  obtain ⟨candidate, inside, own⟩ := ready.settled.supplied blob member
  have sound := ready.sound candidate inside
  obtain ⟨position, found⟩ := List.mem_iff_getElem?.mp own
  obtain ⟨declared, _, describes⟩ := sound.described position blob found
  exact ⟨sound.valid blob own, (blobCommitment_eq_ok.mp describes.commitment).2.1⟩

/-- The blob of a slot is one of the layout. -/
theorem blob_mem {entry : Nat × Slot} (member : entry ∈ entries) :
    entry.2.blob ∈ layout.blobs := by
  rw [ready.settled.blobs]
  exact List.mem_map_of_mem (f := fun entry : Nat × Slot => entry.2.blob) member

/-- The index wrappers are written. -/
theorem exists_wrappers : ∃ wrappers, layout.placed.mapM PlacedTx.wrap = .ok wrappers := by
  apply ready.settled.exists_wrappers_iff.mpr
  intro placed member
  have own := List.mem_map_of_mem (f := fun candidate : BlobCandidate =>
    Usage.delimitedLength candidate.wrappedLength) (ready.mem_candidates member)
  have below := (List.le_sum_of_mem own).trans ready.wrapperBytes
  rw [Usage.delimitedLength] at below
  rw [Wire.sizeLimit]
  omega

/-- No ordinary transaction is marked as an index wrapper. -/
theorem plain : ∀ tx ∈ layout.ordinary, IndexWrapper.isMarked tx = false :=
  fun tx member => (ready.ordinary tx member).1

/-- The streams of both kinds of transactions are short, and their shares are among those that are
kept free. -/
theorem length_streams {wrappers : List Bytes}
    (written : layout.placed.mapM PlacedTx.wrap = .ok wrappers) :
    (Compact.stream layout.ordinary).length < UInt32.size ∧
      (Compact.stream wrappers).length < UInt32.size ∧
      compactSharesNeeded (Compact.stream layout.ordinary).length +
        compactSharesNeeded (Compact.stream wrappers).length ≤ layout.nonReservedStart := by
  have fewer := (ready.settled.placed.map fun candidate =>
    Usage.delimitedLength candidate.wrappedLength).sum_le_sum fun _ _ => Nat.zero_le _
  rw [← ready.settled.length_stream written] at fewer
  have txBytes := ready.txBytes
  have wrapperBytes := ready.wrapperBytes
  have reserved := ready.reserved
  rw [← Compact.length_stream] at txBytes reserved
  have words : 7831552 < UInt32.size := by decide
  have shrunk := compactSharesNeeded_mono fewer
  exact ⟨by omega, by omega, by omega⟩

/-- The transactions of the block are written as shares with the share indexes of the layout. -/
theorem ofTxs_eq_ok {wrappers : List Bytes}
    (written : layout.placed.mapM PlacedTx.wrap = .ok wrappers) :
    ∃ txShares, TxShares.ofTxs (layout.ordinary ++ wrappers) = .ok txShares ∧
      txShares.shareIndexes = layout.placed.flatMap PlacedTx.shareIndexes ∧
      txShares.length ≤ layout.nonReservedStart := by
  obtain ⟨txFits, wrapperFits, free⟩ := ready.length_streams written
  refine ⟨_, (ready.settled.ofTxs_eq_ok_iff written ready.plain).mpr ⟨txFits, wrapperFits, rfl⟩,
    rfl, ?_⟩
  rw [TxShares.length, Compact.length_sequenceOf, Compact.length_sequenceOf]
  exact free

/-- Where the slots of a layout start. -/
theorem toNat_start {entry : Nat × Slot} (member : entry ∈ entries) :
    (UInt32.ofNat entry.1).toNat = entry.1 :=
  UInt32.toNat_ofNat_of_lt' (ready.settled.stacked.of_mem member).2.2.1

/-- The share indexes in order are where the slots start. -/
theorem sortedIndexes_eq {txShares : TxShares}
    (indexes : txShares.shareIndexes = layout.placed.flatMap PlacedTx.shareIndexes) :
    txShares.sortedIndexes = entries.map Prod.fst := by
  have starts : (entries.map fun entry => UInt32.ofNat entry.1).map UInt32.toNat =
      entries.map Prod.fst := by
    rw [List.map_map]
    exact List.map_congr_left fun entry member => ready.toNat_start member
  have perm : txShares.sortedIndexes.Perm (entries.map Prod.fst) := by
    rw [← starts]
    refine txShares.sortedIndexes_perm.trans ?_
    rw [indexes]
    exact ready.settled.indexes.map UInt32.toNat
  have sorted : txShares.sortedIndexes.Pairwise (· ≤ ·) :=
    pairwise_mergeSort (r := fun left right => left ≤ right) (fun _ _ _ => Nat.le_trans)
      Nat.le_total _
  have increasing := ready.settled.stacked.pairwise_start fun entry member => by
    have valid := (Blob.validate_eq_ok.mp (ready.valid (ready.blob_mem member)).1).2.1
    exact sparseSharesNeeded_pos (by rwa [Blob.size, ne_eq, List.length_eq_zero_iff])
  exact perm.eq_of_pairwise (fun _ _ _ _ => Nat.le_antisymm) sorted
    (increasing.imp Nat.le_of_lt)

/-- The block of the layout makes a square, when the number of its shares fits 64 bits. -/
theorem exists_split {wrappers : List Bytes}
    (written : layout.placed.mapM PlacedTx.wrap = .ok wrappers)
    (countable : layout.squareSize * layout.squareSize < UInt64.size) :
    ∃ shares, Square.split (layout.ordinary ++ wrappers) layout.blobs layout.squareSize =
      .ok shares := by
  obtain ⟨txShares, found, indexes, free⟩ := ready.ofTxs_eq_ok written
  have pairs : txShares.sortedIndexes.zip layout.blobs =
      entries.map fun entry => (entry.1, entry.2.blob) := by
    rw [ready.sortedIndexes_eq indexes, ready.settled.blobs, List.zip_map']
  have inside := ready.inside
  obtain ⟨placed, laid, fits⟩ := Square.exists_blobShares
    (ready.settled.stacked.of_le free) (fun entry member => by
      obtain ⟨valid, writable⟩ := ready.valid (ready.blob_mem member)
      exact ⟨writable, (Blob.validate_eq_ok.mp valid).2.1⟩) (by omega) none
  refine ⟨_, Square.split_eq_ok.mpr
    ⟨countable, txShares, placed, found, ?_, by rw [pairs]; exact laid, ?_, rfl⟩⟩
  · rw [indexes, ready.settled.indexes.length_eq, ready.settled.blobs, List.length_map,
      List.length_map]
  · rwa [List.length_append, TxShares.length_shares]

end Ready

end Layout

end DataSquare
