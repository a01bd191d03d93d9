import DataSquare.Proofs.Mempool.Candidate
import DataSquare.Proofs.Proposal.Placed
import DataSquare.Proofs.Square.Commitment
import DataSquare.Proofs.Wire.Message

/-!
# Blocks of one blob

The smallest blocks that pay for a blob: an ordinary transaction, an index wrapper and a blob of
one share make a square of width two. Such a block is accepted whatever size its payment
declares, as long as that size takes one share.
-/
namespace DataSquare

/-- The transaction that pays for one blob. -/
def Tx.forBlob (signer : Address) (declared : DeclaredBlob) : Tx :=
  ⟨[signer], [.payment ⟨signer, [declared.ns], [declared.size], [declared.commitment],
    [declared.shareVersion]⟩], 0, 0, ""⟩

/-- The index wrapper of a transaction whose blob starts at the third share. -/
def IndexWrapper.forBlob (signer : Address) (declared : DeclaredBlob) : IndexWrapper :=
  ⟨Format.tx.encode (Tx.forBlob signer declared), [2]⟩

/-- The contents of a block of one ordinary transaction and one blob. -/
def BlockData.forBlob (signer : Address) (declared : DeclaredBlob) (blob : Blob) : BlockData :=
  ⟨[[1], Format.indexWrapper.encode (IndexWrapper.forBlob signer declared)], [blob], 2⟩

section

variable (signer : Address) (declared : DeclaredBlob) (blob : Blob)

/-- The transaction is read back, whatever follows it. -/
theorem Tx.lawfulAt_forBlob : Format.tx.LawfulAt (Tx.forBlob signer declared) := by
  have one : 1 < UInt64.size := by decide
  have empty : "".utf8ByteSize < UInt64.size := by decide
  refine Tx.lawfulAt one one (fun message member => ?_) (Format.lawfulAt_text empty rfl rfl)
  rw [List.mem_singleton.mp member]
  exact Message.lawfulAt_payment (BlobPayment.lawfulAt one one one one)

/-- The transaction is read back. -/
theorem Tx.ofBytes_forBlob :
    Tx.ofBytes (Format.tx.encode (Tx.forBlob signer declared)) = .ok (Tx.forBlob signer declared) :=
  Wire.deserialize_encode (Tx.lawfulAt_forBlob signer declared)

/-- The transaction has 182 bytes. -/
theorem Tx.length_forBlob : (Format.tx.encode (Tx.forBlob signer declared)).length = 182 := by
  rw [(Tx.lawfulAt_forBlob signer declared).size_eq]
  rfl

/-- The index wrapper is written. -/
theorem IndexWrapper.toBytes_forBlob : (IndexWrapper.forBlob signer declared).toBytes =
    .ok (Format.indexWrapper.encode (IndexWrapper.forBlob signer declared)) := by
  refine IndexWrapper.toBytes_eq_ok.mpr ⟨?_, rfl⟩
  rw [IndexWrapper.forBlob, Tx.length_forBlob]
  change 182 + 20 + 4 * 1 ≤ Wire.sizeLimit
  decide

/-- The index wrapper has 206 bytes. -/
theorem IndexWrapper.length_forBlob :
    (Format.indexWrapper.encode (IndexWrapper.forBlob signer declared)).length = 206 := by
  rw [(IndexWrapper.ofBytes_of_toBytes (IndexWrapper.toBytes_forBlob signer declared)).2.2,
    IndexWrapper.forBlob, Tx.length_forBlob]
  rfl

/-- The payment in the index wrapper. -/
def WrappedPayment.forBlob : WrappedPayment :=
  ⟨1, [signer], ⟨signer, [declared.ns], [declared.size], [declared.commitment],
    [declared.shareVersion]⟩, [2]⟩

/-- The index wrapper holds the payment. -/
theorem WrappedPayment.ofWrapper_forBlob :
    WrappedPayment.ofWrapper 1 (Format.indexWrapper.encode (IndexWrapper.forBlob signer declared)) =
      .ok (WrappedPayment.forBlob signer declared) :=
  WrappedPayment.ofWrapper_eq_ok.mpr ⟨_, _, _,
    (IndexWrapper.ofBytes_of_toBytes (IndexWrapper.toBytes_forBlob signer declared)).2.1,
    Tx.ofBytes_forBlob signer declared, rfl, rfl⟩

/-- The transactions of the block are read. -/
theorem BlockData.blockTxs_forBlob :
    (BlockData.forBlob signer declared blob).txs.zipIdx.mapM
      (fun (raw, index) => WrappedPayment.ofBlockTx? index raw) =
        .ok [none, some (WrappedPayment.forBlob signer declared)] := by
  have marked :=
    (IndexWrapper.ofBytes_of_toBytes (IndexWrapper.toBytes_forBlob signer declared)).1
  refine mapM_eq_ok.mpr (.cons ?_ (.cons ?_ .nil))
  · exact WrappedPayment.ofBlockTx?_eq_ok.mpr (.inr ⟨by decide, by decide, by rfl, rfl⟩)
  · exact WrappedPayment.ofBlockTx?_eq_ok.mpr
      (.inl ⟨marked, _, WrappedPayment.ofWrapper_forBlob signer declared, rfl⟩)

/-- The ordinary transactions of the block. -/
theorem TxShares.ordinaryTxs_forBlob :
    TxShares.ordinaryTxs (BlockData.forBlob signer declared blob).txs = [[1]] := by
  have marked :=
    (IndexWrapper.ofBytes_of_toBytes (IndexWrapper.toBytes_forBlob signer declared)).1
  rw [TxShares.ordinaryTxs, BlockData.forBlob, List.filter_cons_of_pos (by decide),
    List.filter_cons_of_neg (by rw [marked]; decide), List.filter_nil]

/-- The index wrappers of the block. -/
theorem TxShares.wrappedTxs_forBlob :
    TxShares.wrappedTxs (BlockData.forBlob signer declared blob).txs =
      [Format.indexWrapper.encode (IndexWrapper.forBlob signer declared)] := by
  have marked :=
    (IndexWrapper.ofBytes_of_toBytes (IndexWrapper.toBytes_forBlob signer declared)).1
  rw [TxShares.wrappedTxs, BlockData.forBlob, List.filter_cons_of_neg (by decide),
    List.filter_cons_of_pos marked, List.filter_nil]

/-- The stream of the ordinary transaction has two bytes. -/
theorem Compact.length_stream_oneByte : (Compact.stream [[1]]).length = 2 := by
  rw [Compact.length_stream_singleton]
  simp [Varint.size]

/-- The stream of the index wrapper has 208 bytes. -/
theorem IndexWrapper.length_stream_forBlob : (Compact.stream
    [Format.indexWrapper.encode (IndexWrapper.forBlob signer declared)]).length = 208 := by
  rw [Compact.length_stream_singleton, IndexWrapper.length_forBlob]
  simp [Varint.size]

/-- The transactions of the block are written to streams, with one index. -/
theorem TxShares.ofTxs_forBlob :
    TxShares.ofTxs (BlockData.forBlob signer declared blob).txs =
      .ok (TxShares.ofStreams (BlockData.forBlob signer declared blob).txs [2]) := by
  refine TxShares.ofTxs_eq_ok.mpr ⟨?_, ?_, _, ?_, rfl⟩
  · rw [TxShares.ordinaryTxs_forBlob, Compact.length_stream_oneByte]
    decide
  · rw [TxShares.wrappedTxs_forBlob, IndexWrapper.length_stream_forBlob]
    decide
  · exact Process.declaredIndexes_of_blockTxs (BlockData.blockTxs_forBlob signer declared blob)

/-- The ordinary transaction and the index wrapper take one share each. -/
theorem TxShares.shares_forBlob : ∃ first second,
    (TxShares.ofStreams (BlockData.forBlob signer declared blob).txs [2]).shares =
      [first, second] ∧
    first.ns = .ok Namespace.transaction ∧ second.ns = .ok Namespace.payForBlob := by
  have ordinary : compactSharesNeeded (Compact.stream [[1]]).length = 1 := by
    rw [Compact.length_stream_oneByte]
    rfl
  have wrapped : compactSharesNeeded (Compact.stream
      [Format.indexWrapper.encode (IndexWrapper.forBlob signer declared)]).length = 1 := by
    rw [IndexWrapper.length_stream_forBlob]
    rfl
  obtain ⟨first, firstAlone, firstStands⟩ :=
    Compact.exists_share_sequenceOf Namespace.transaction ordinary
  obtain ⟨second, secondAlone, secondStands⟩ :=
    Compact.exists_share_sequenceOf Namespace.payForBlob wrapped
  refine ⟨first, second, ?_, firstStands, secondStands⟩
  rw [TxShares.shares, TxShares.ofStreams, TxShares.ordinaryTxs_forBlob,
    TxShares.wrappedTxs_forBlob, firstAlone, secondAlone]
  rfl

/-- The blob stands behind the shares of the transactions. -/
theorem BlockData.square_forBlob (valid : blob.validate = .ok ()) (alone : blob.shareCount = 1)
    (writable : blob.IsWritable) :
    ∃ first second, (BlockData.forBlob signer declared blob).square =
        .ok ([first, second] ++ blob.shares ++ Share.tailPadding 1) ∧
      first.ns = .ok Namespace.transaction ∧ second.ns = .ok Namespace.payForBlob := by
  obtain ⟨first, second, shares, firstStands, secondStands⟩ :=
    TxShares.shares_forBlob signer declared blob
  have count : blob.shares.length = 1 :=
    (Blob.length_shares (Blob.validate_eq_ok.mp valid).2.1).trans alone
  have total : ([first, second] ++ blob.shares).length = 3 := by
    rw [List.length_append, count]
    rfl
  have countable : 2 * 2 < UInt64.size := by decide
  refine ⟨first, second, Square.split_eq_ok.mpr ⟨countable, _, blob.shares,
    TxShares.ofTxs_forBlob signer declared blob, rfl, ?_, ?_, ?_⟩, firstStands, secondStands⟩
  · rw [← TxShares.length_shares, shares]
    have sorted : (TxShares.ofStreams (BlockData.forBlob signer declared blob).txs
        [2]).sortedIndexes = [2] := List.mergeSort_singleton 2
    rw [sorted]
    have range : 2 ≤ 2 ∧ 2 ≤ 2 * 2 := by decide
    refine Square.blobShares_cons_eq_ok.mpr ⟨range, writable, [],
      Square.blobShares_nil_eq_ok.mpr rfl, ?_⟩
    rw [Square.paddingBefore_eq, List.append_nil]
    rfl
  · rw [shares, total]
    change 3 ≤ 2 * 2
    decide
  · rw [shares, total]
    rfl

end

section Square

variable {blob : Blob} {first second : Share} {header : AvailabilityHeader} {trees : RowTrees}
  (valid : blob.validate = .ok ()) (alone : blob.shareCount = 1)
  (ordered : Ordered ([first, second] ++ blob.shares ++ Share.tailPadding 1))
  (built : AvailabilityHeader.ofShares ([first, second] ++ blob.shares ++ Share.tailPadding 1) =
    .ok (header, trees))
include valid alone built

/-- The square is two shares wide. -/
theorem squareSize_forBlob : header.squareSize = 2 := by
  have count : blob.shares.length = 1 :=
    (Blob.length_shares (Blob.validate_eq_ok.mp valid).2.1).trans alone
  have full : ([first, second] ++ blob.shares ++ Share.tailPadding 1).length = 2 * 2 := by
    rw [List.length_append, List.length_append, count]
    rfl
  exact AvailabilityHeader.squareSize_of_ofShares built full

include ordered in
/-- The rows of the square are clear, since the second one starts with the blob. -/
theorem clear_forBlob (stands : first.ns = .ok Namespace.transaction) : trees.Clear header := by
  obtain ⟨publishable, nonempty, _⟩ := Blob.validate_eq_ok.mp valid
  have width := squareSize_forBlob valid alone built
  obtain ⟨share, placed⟩ := List.length_eq_one_iff.mp ((Blob.length_shares nonempty).trans alone)
  have shareStands : share.ns = .ok blob.ns :=
    Blob.ns_of_mem_shares (by rw [placed]; exact List.mem_singleton_self share)
  have low : Namespace.transaction < blob.ns :=
    Namespace.lt_of_le_of_lt (by decide) (Namespace.reservedPadding_lt publishable)
  have high : blob.ns < Namespace.parity :=
    Namespace.lt_of_lt_of_le (Namespace.lt_tailPadding publishable) (by decide)
  have top : Ordered.spaceAt ([first, second] ++ blob.shares ++ Share.tailPadding 1) 0 =
      Namespace.transaction := Share.space_of_ns stands
  have bottom : Ordered.spaceAt ([first, second] ++ blob.shares ++ Share.tailPadding 1) 2 =
      blob.ns := by
    rw [placed]
    exact Share.space_of_ns shareStands
  apply ordered.clear_of_two_rows built width
  · rw [top, bottom]
    exact low
  · rw [bottom]
    exact high

/-- The square has the commitment of the blob at its third share, when its rows are clear. -/
theorem squareCommitment_forBlob (clear : trees.Clear header) {threshold : Nat}
    {commitment : Digest} (paid : blobCommitment blob threshold = .ok commitment) :
    squareCommitment trees header 2 1 threshold = .ok commitment := by
  obtain ⟨nonempty, _, value⟩ := blobCommitment_eq_ok.mp paid
  have width := squareSize_forBlob valid alone built
  have power : isPowerOfTwo header.squareSize = true := by
    rw [width]
    decide
  have narrow : subtreeWidth 1 threshold = 1 :=
    Nat.le_antisymm (subtreeWidth_le_self Nat.one_pos _)
      (pos_of_isPowerOfTwo (isPowerOfTwo_subtreeWidth 1 _))
  have inside : 2 + 1 ≤ header.squareSize * header.squareSize := by
    rw [width]
    decide
  obtain ⟨result, found, known⟩ := squareCommitment_of_dvd built power Nat.one_pos inside
    (narrow ▸ Nat.one_dvd 2)
  have stands : (([first, second] ++ blob.shares ++ Share.tailPadding 1).drop 2).take
      blob.shares.length = blob.shares := by
    rw [List.append_assoc]
    exact List.take_left
  have nodes := nodesCommitment_of_stands stands threshold
  rw [Blob.length_shares nonempty, alone] at nodes
  rw [found, known clear, value, alone]
  exact congrArg Except.ok nodes

end Square

section Payment

variable {declared : DeclaredBlob} {blob : Blob} (valid : blob.validate = .ok ())
  (ns : declared.ns = blob.ns) (version : declared.shareVersion = blob.shareVersion)
  (size : sparseSharesNeeded declared.size.toNat = 1)
include valid

/-- The contents of the block decode. -/
theorem BlockData.decode_forBlob (signer : Address) :
    Process.decode (BlockData.forBlob signer declared blob) =
      .ok [WrappedPayment.forBlob signer declared] :=
  Process.decode_eq_ok.mpr ⟨_, BlockData.blockTxs_forBlob signer declared blob, rfl,
    fun other member => by rw [List.mem_singleton.mp member]; exact valid,
    List.pairwise_singleton _ _, rfl⟩

include ns version size

/-- The payment is sound on its own when its declared size takes a share. -/
theorem WrappedPayment.validate_forBlob (signer : Address) :
    (WrappedPayment.forBlob signer declared).payment.validate = .ok () := by
  obtain ⟨publishable, _, readable⟩ := Blob.validate_eq_ok.mp valid
  refine BlobPayment.validate_eq_ok.mpr ⟨Nat.one_ne_zero, ⟨rfl, rfl, rfl⟩,
    fun other member => ?_, fun other member zero => ?_, fun other member => ?_⟩
  · rw [List.mem_singleton.mp member, ns]
    exact publishable
  · rw [List.mem_singleton.mp member] at zero
    rw [zero] at size
    exact absurd size (by decide)
  · rw [List.mem_singleton.mp member, version]
    exact readable

/-- The payment is accepted with a square that has the declared commitment at the third share. -/
theorem Process.checkPayment_forBlob (signer : Address) {header : AvailabilityHeader}
    {trees : RowTrees} {threshold : Nat}
    (found : squareCommitment trees header 2 1 threshold = .ok declared.commitment) :
    Process.checkPayment ⟨header, trees, threshold,
      Process.placedBlobs [WrappedPayment.forBlob signer declared] [blob]⟩
        (WrappedPayment.forBlob signer declared) = .ok () := by
  have pairs : Process.placedBlobs [WrappedPayment.forBlob signer declared] [blob] = [(2, blob)] :=
    congrArg (List.zip · [blob]) (List.mergeSort_singleton 2)
  refine Process.checkPayment_eq_ok.mpr
    ⟨WrappedPayment.validate_forBlob valid ns version size signer,
      WrappedPayment.checkSigners_eq_ok.mpr rfl, rfl, fun position shareIndex entry => ?_⟩
  obtain ⟨bound, value⟩ := List.getElem?_eq_some_iff.mp entry
  obtain rfl : position = 0 := Nat.lt_one_iff.mp bound
  obtain rfl : 2 = shareIndex := value
  refine Process.checkBlob_eq_ok.mpr ⟨declared, rfl, ?_, by rw [size]; exact found⟩
  have keys : ([(2, blob)].map Prod.fst : List UInt32).Nodup := List.nodup_singleton 2
  dsimp only
  rw [pairs, blobAt_eq_some keys (List.mem_singleton_self _), Option.map_some, ns]

end Payment

/-- A block of one blob is accepted whatever size is declared for the blob, as long as that size
takes one share and is not zero. -/
theorem exists_accepted_forBlob (signer : Address) {declared : DeclaredBlob} {blob : Blob}
    {consts : AppConsts} (allowed : consts.isValidSquareSize 2 = true)
    (valid : blob.validate = .ok ()) (alone : blob.shareCount = 1)
    (ns : declared.ns = blob.ns) (version : declared.shareVersion = blob.shareVersion)
    (commitment : blobCommitment blob consts.subtreeRootThreshold = .ok declared.commitment)
    (size : sparseSharesNeeded declared.size.toNat = 1) :
    ∃ header : BlockHeader,
      processProposal ⟨header, BlockData.forBlob signer declared blob⟩ consts = .accepted := by
  obtain ⟨first, second, made, stands, _⟩ := BlockData.square_forBlob signer declared blob valid
    alone (blobCommitment_eq_ok.mp commitment).2.1
  have ordered := Square.ordered_of_split made
    (fun other member => by
      rw [List.mem_singleton.mp member]
      exact (Blob.validate_eq_ok.mp valid).1)
    (List.pairwise_singleton _ _)
  have full : ([first, second] ++ blob.shares ++ Share.tailPadding 1).length = 2 * 2 :=
    Square.length_of_split made
  obtain ⟨header, trees, built⟩ := ordered.exists_ofShares (by decide) (by decide) full
  have clear := clear_forBlob valid alone ordered built stands
  have found := squareCommitment_forBlob valid alone built clear commitment
  refine ⟨⟨0, signer, header.hash⟩, processProposal_eq_accepted.mpr (Process.verify_eq_ok.mpr
    ⟨_, _, header, trees, allowed, BlockData.decode_forBlob valid signer, made, built, rfl, ?_⟩)⟩
  refine Process.checkCommitments_eq_ok.mpr ⟨fun payment member => ?_, rfl⟩
  rw [List.mem_singleton.mp member]
  exact Process.checkPayment_forBlob valid ns version size signer found

/-- A blob of one byte is written. -/
theorem Blob.isWritable_single (ns : Namespace) : (Blob.single ns).IsWritable := by
  have short : 1 < UInt32.size := by decide
  have known : (0 : UInt8) ≤ maxShareVersion := by decide
  exact ⟨short, known⟩

/-- The blob of one byte in the lowest namespace for users. -/
def Blob.oneByte : Blob := .single Namespace.lowestUser

/-- The blob of one byte may be published. -/
theorem Blob.validate_oneByte : Blob.oneByte.validate = .ok () :=
  Blob.validate_single (by rfl)

/-- The blob of one byte is written. -/
theorem Blob.isWritable_oneByte : Blob.oneByte.IsWritable :=
  Blob.isWritable_single Namespace.lowestUser

/-- A transaction that pays for the blob of one byte is submitted. -/
theorem Candidate.exists_oneByte : ∃ raw commitment, ofBytes raw AppVersion.v3.consts =
    .ok (.blob (BlobCandidate.single Namespace.lowestUser commitment)) := by
  obtain ⟨commitment, paid⟩ := exists_blobCommitment (List.cons_ne_nil _ _)
    Blob.isWritable_oneByte AppVersion.v3.consts.subtreeRootThreshold
  obtain ⟨raw, read⟩ := exists_envelope_single (by rfl) paid
  exact ⟨raw, commitment, read⟩

/-- There is a commitment to the blob of one byte, and a block of it is accepted with every declared
size of one share. -/
theorem exists_accepted_oneByte (size : UInt32) (one : sparseSharesNeeded size.toNat = 1) :
    ∃ (commitment : Digest) (header : BlockHeader),
      blobCommitment .oneByte AppVersion.v3.consts.subtreeRootThreshold = .ok commitment ∧
      processProposal ⟨header, BlockData.forBlob (.replicate 20 0)
        ⟨Namespace.lowestUser, size, commitment, 0⟩ .oneByte⟩ AppVersion.v3.consts = .accepted := by
  obtain ⟨commitment, paid⟩ := exists_blobCommitment (List.cons_ne_nil _ _)
    Blob.isWritable_oneByte AppVersion.v3.consts.subtreeRootThreshold
  have allowed : AppVersion.v3.consts.isValidSquareSize 2 = true := by decide
  have ns : (⟨Namespace.lowestUser, size, commitment, 0⟩ : DeclaredBlob).ns = Blob.oneByte.ns := rfl
  obtain ⟨header, accepted⟩ := exists_accepted_forBlob (.replicate 20 0) allowed
    Blob.validate_oneByte rfl ns rfl
    paid one
  exact ⟨commitment, header, paid, accepted⟩

end DataSquare
