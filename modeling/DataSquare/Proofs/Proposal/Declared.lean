import DataSquare.Proofs.Consensus
import DataSquare.Proofs.Proposal.DataHash
import DataSquare.Proofs.Proposal.SingleBlob

/-!
# What payments declare about the blobs of a block

A validator looks a commitment up by the declared number of bytes, and compares neither this
number with the blob that stands at the share index nor its shares. So in an accepted block a
declaration names the blob of its rank in the declared namespace, and commits to as many shares
from the start of the blob as the declared size takes. It is about the blob itself exactly when
both take equally many shares.
-/
namespace DataSquare

/-- The number of shares that a declared blob takes. -/
def DeclaredBlob.shareCount (declared : DeclaredBlob) : Nat :=
  sparseSharesNeeded declared.size.toNat

/-- What is hashed for the commitment of some shares of a block from a share on, their leaves
aside. -/
def BlockData.commitmentMessages (data : BlockData) (start count threshold : Nat) : List Bytes :=
  match data.square with
  | .error _ => []
  | .ok shares => nodesMessages ((shares.drop start).map Share.node) count threshold

/-- What is hashed for a blob at a share index and for what is declared about it: the rows of the
square and both commitments. -/
def BlockData.declarationMessages (data : BlockData) (shareIndex : UInt32) (blob : Blob)
    (declared : DeclaredBlob) (threshold : Nat) : List Bytes :=
  data.rowMessages ++ (data.commitmentMessages shareIndex.toNat blob.shareCount threshold ++
    data.commitmentMessages shareIndex.toNat declared.shareCount threshold)

/-- The commitment to a blob that stands in a square is that of its shares there. -/
theorem blobCommitment_of_stands {shares : List Share} {blob : Blob} {start : Nat}
    (nonempty : blob.data ≠ []) (writable : blob.IsWritable)
    (stands : blob.shares <+: shares.drop start) (threshold : Nat) :
    blobCommitment blob threshold =
      .ok (nodesCommitment ((shares.drop start).map Share.node) blob.shareCount threshold) := by
  have placed : (shares.drop start).take blob.shares.length = blob.shares :=
    (List.prefix_iff_eq_take.mp stands).symm
  refine blobCommitment_eq_ok.mpr ⟨nonempty, writable, ?_⟩
  rw [List.map_drop, ← Blob.length_shares nonempty, nodesCommitment_of_stands placed]

/-- A blob that stands in a square has the declared commitment exactly when it takes as many shares
as are declared, unless messages collide. -/
theorem blobCommitment_eq_iff_of_stands {shares : List Share} {header : AvailabilityHeader}
    {trees : RowTrees} {blob : Blob} {commitment : Digest} {start count threshold : Nat}
    (built : AvailabilityHeader.ofShares shares = .ok (header, trees))
    (power : isPowerOfTwo header.squareSize = true) (nonempty : blob.data ≠ [])
    (writable : blob.IsWritable) (stands : blob.shares <+: shares.drop start)
    (found : squareCommitment trees header start count threshold = .ok commitment) :
    (blobCommitment blob threshold = .ok commitment ↔ blob.shareCount = count) ∨
      Sha256.Collision (Square.rowMessages shares ++
        (nodesMessages ((shares.drop start).map Share.node) blob.shareCount threshold ++
          nodesMessages ((shares.drop start).map Share.node) count threshold)) := by
  obtain ⟨several, inside, aligned⟩ := dvd_of_squareCommitment_eq_ok power found
  obtain ⟨other, again, value⟩ := squareCommitment_of_dvd built power several inside aligned
  obtain rfl : commitment = other := Except.ok.inj (found.symm.trans again)
  rcases Square.clear_or_collision built with clear | collision
  · have declared := value clear
    rw [← List.map_drop] at declared
    rw [blobCommitment_of_stands nonempty writable stands, declared, Except.ok.injEq]
    rcases Sha256.collisionFree_or_collision ((shares.drop start).map Share.message ++
      (nodesMessages ((shares.drop start).map Share.node) blob.shareCount threshold ++
        nodesMessages ((shares.drop start).map Share.node) count threshold)) with free | collision
    · refine .inl ⟨fun same => count_eq_of_nodesCommitment_eq free ?_ ?_ same, fun same => ?_⟩
      · rw [← Blob.length_shares nonempty]
        exact stands.length_le
      · rw [List.length_drop, (AvailabilityHeader.length_of_ofShares built).2.2]
        omega
      · rw [same]
    · right
      refine collision.mono fun message member => ?_
      rcases List.mem_append.mp member with leaf | inner
      · obtain ⟨share, listed, rfl⟩ := List.mem_map.mp leaf
        apply List.mem_append_left
        rw [Square.rowMessages_of_ofShares built]
        exact List.mem_append_left _ (List.mem_map_of_mem (List.drop_subset start shares listed))
      · exact List.mem_append_right _ inner
  · exact .inr (collision.mono (List.subset_append_left _ _))

/-- In an accepted block each declaration of an index wrapper names the blob whose rank is that of
its share index, in the declared namespace. The blob has the declared size and commitment exactly
when it has the declared size, and has the declared commitment exactly when it takes as many shares
as the declared size, unless two messages that are hashed for them have one digest. -/
theorem declared_of_accepted {block : Block} {consts : AppConsts} {index : Nat} {raw : Bytes}
    (accepted : processProposal block consts = .accepted)
    (found : block.data.txs[index]? = some raw) (marked : IndexWrapper.isMarked raw = true) :
    ∃ payment indexes, WrappedPayment.ofWrapper index raw = .ok payment ∧
      TxShares.declaredIndexes block.data.txs = .ok indexes ∧
      payment.shareIndexes.length = payment.payment.blobCount ∧
      ∀ (position : Nat) (shareIndex : UInt32),
        payment.shareIndexes[position]? = some shareIndex →
        ∃ declared blob, payment.declared? position = some declared ∧
          block.data.blobs[indexes.countP fun other => other < shareIndex]? = some blob ∧
          blob.ns = declared.ns ∧
          (((blob.size = declared.size.toNat ∧
              blobCommitment blob consts.subtreeRootThreshold = .ok declared.commitment) ↔
                blob.size = declared.size.toNat) ∧
            (blobCommitment blob consts.subtreeRootThreshold = .ok declared.commitment ↔
              blob.shareCount = declared.shareCount) ∨
          Sha256.Collision (block.data.declarationMessages shareIndex blob declared
            consts.subtreeRootThreshold)) := by
  obtain ⟨wrapped, shares, header, trees, width, decoded, made, built, _, paid⟩ :=
    Process.verify_eq_ok.mp (processProposal_eq_accepted.mp accepted)
  obtain ⟨read, listed, rfl, valid, _, _⟩ := Process.decode_eq_ok.mp decoded
  obtain ⟨own, entry, head⟩ := (mapM_zipIdx_eq_ok.mp listed).2 index raw found
  obtain ⟨payment, wraps, rfl⟩ : ∃ payment, WrappedPayment.ofWrapper index raw = .ok payment ∧
      own = some payment := by
    rcases WrappedPayment.ofBlockTx?_eq_ok.mp head with ⟨_, payment, wraps, rfl⟩ | ⟨plain, _⟩
    · exact ⟨payment, wraps, rfl⟩
    · rw [marked] at plain
      contradiction
  have member : payment ∈ read.filterMap id :=
    List.mem_filterMap.mpr ⟨_, List.mem_of_getElem? entry, rfl⟩
  obtain ⟨_, _, lengths, checks⟩ :=
    Process.checkPayment_eq_ok.mp ((Process.checkCommitments_eq_ok.mp paid).1 payment member)
  refine ⟨payment, _, wraps, Process.declaredIndexes_of_blockTxs listed, lengths,
    fun position shareIndex placed => ?_⟩
  obtain ⟨declared, declares, namespaces, commitment⟩ :=
    Process.checkBlob_eq_ok.mp (checks position shareIndex placed)
  obtain ⟨blob, ranked, stands, writable, shared⟩ := Process.exists_blobAt decoded made
    (List.mem_flatMap.mpr ⟨payment, member, List.mem_of_getElem? placed⟩)
  rw [stands, Option.map_some, Option.some.injEq] at namespaces
  refine ⟨declared, blob, declares, ranked, namespaces, ?_⟩
  have nonempty := (Blob.validate_eq_ok.mp (valid blob (List.mem_of_getElem? ranked))).2.1
  have power : isPowerOfTwo header.squareSize = true := by
    rw [AvailabilityHeader.squareSize_of_ofShares built (Square.length_of_split made)]
    exact (AppConsts.isValidSquareSize_iff.mp width).1
  rcases blobCommitment_eq_iff_of_stands built power nonempty writable shared commitment with
    exact | collision
  · refine .inl ⟨⟨fun both => both.1, fun size => ⟨size, exact.mpr ?_⟩⟩, exact⟩
    rw [Blob.shareCount, size]
  · right
    rw [BlockData.declarationMessages, BlockData.commitmentMessages, BlockData.commitmentMessages,
      made, BlockData.rowMessages_of_square made]
    exact collision

/-- A block is accepted whose payment declares two bytes for a blob of one byte. Its declaration
commits to the blob, since both take one share, and still is not about it. -/
theorem declared_two_bytes_of_accepted : ∃ (block : Block) (raw : Bytes) (payment : WrappedPayment)
    (declared : DeclaredBlob) (blob : Blob),
    processProposal block AppVersion.v3.consts = .accepted ∧ block.data.txs[1]? = some raw ∧
      IndexWrapper.isMarked raw = true ∧ WrappedPayment.ofWrapper 1 raw = .ok payment ∧
      payment.declared? 0 = some declared ∧ block.data.blobs[0]? = some blob ∧
      declared.size = 2 ∧ blob.size = 1 ∧
      (((blob.size = declared.size.toNat ∧
          blobCommitment blob AppVersion.v3.consts.subtreeRootThreshold = .ok declared.commitment) ↔
            blob.size = declared.size.toNat) ∧
        (blobCommitment blob AppVersion.v3.consts.subtreeRootThreshold = .ok declared.commitment ↔
          blob.shareCount = declared.shareCount) ∨
      Sha256.Collision (block.data.declarationMessages 2 blob declared
        AppVersion.v3.consts.subtreeRootThreshold)) := by
  obtain ⟨commitment, header, _, accepted⟩ := exists_accepted_oneByte 2 rfl
  have marked := (IndexWrapper.ofBytes_of_toBytes (IndexWrapper.toBytes_forBlob (.replicate 20 0)
    ⟨Namespace.lowestUser, 2, commitment, 0⟩)).1
  obtain ⟨payment, indexes, wraps, listed, _, each⟩ :=
    declared_of_accepted accepted (rfl : _[1]? = some _) marked
  have own := WrappedPayment.ofWrapper_forBlob (.replicate 20 0)
    ⟨Namespace.lowestUser, 2, commitment, 0⟩
  obtain rfl := Except.ok.inj (wraps.symm.trans own)
  have indexed := Process.declaredIndexes_of_blockTxs (BlockData.blockTxs_forBlob (.replicate 20 0)
    ⟨Namespace.lowestUser, 2, commitment, 0⟩ .oneByte)
  obtain rfl := Except.ok.inj (listed.symm.trans indexed)
  obtain ⟨declared, blob, declares, ranked, _, exact⟩ := each 0 2 rfl
  obtain rfl : _ = declared := Option.some.inj declares
  obtain rfl : _ = blob := Option.some.inj ranked
  exact ⟨_, _, _, _, _, accepted, rfl, marked, own, rfl, rfl, rfl, rfl, exact⟩

end DataSquare
