import DataSquare.Proofs.Mempool.Eviction
import DataSquare.Proofs.Proposal.DataHash
import DataSquare.Proofs.Proposal.Layout
import DataSquare.Proofs.Square.Packing
import DataSquare.Proofs.Square.Stable

/-!
# Prepared proposals

A proposer never gets stuck: the candidates that it goes on with have a square, their layout is
settled, and the block of the layout makes a square whose header is built. A validator finds in
that block what the proposer put there, so it accepts the block unless rows of the square are taken
for one another.
-/
namespace DataSquare

/-- The payment in the index wrapper of a placed transaction, apart from where the wrapper
stands. -/
def PlacedTx.payment (placed : PlacedTx) : WrappedPayment :=
  ⟨0, [placed.candidate.payment.signer], placed.candidate.payment, placed.shareIndexes⟩

namespace Layout.Ready

variable {layout : Layout} {candidates : List BlobCandidate} {threshold : Nat}
  {entries : List (Nat × Slot)} (ready : layout.Ready candidates threshold entries)
  {data : BlockData} (contents : layout.blockData = .ok data)
include ready contents

/-- The block of a layout decodes to the payments of its placed transactions. -/
theorem exists_decoded : ∃ wrapped, Process.decode data = .ok wrapped ∧
    wrapped.map WrappedPayment.content = layout.placed.map PlacedTx.payment := by
  obtain ⟨wrappers, written, rfl⟩ := blockData_eq_ok.mp contents
  obtain ⟨ordinary, wrapped⟩ := ready.settled.kinds_of_written written ready.plain
  have payments : wrappers.mapM (WrappedPayment.ofWrapper 0) =
      .ok (layout.placed.map PlacedTx.payment) := by
    rw [mapM_eq_ok, List.forall₂_map_right_iff]
    have each := (List.forall₂_and_left _ _).mpr
      ⟨fun _ member => member, ready.settled.wrappers_spec written⟩
    refine (each.imp ?_).flip
    rintro placed raw ⟨member, _, back, _⟩
    obtain ⟨tx, decoded, pays, signers⟩ := (ready.sound _ (ready.mem_candidates member)).signed
    exact WrappedPayment.ofWrapper_eq_ok.mpr ⟨_, tx, _, back, decoded, pays, by
      rw [PlacedTx.payment, signers]⟩
  have holds : ∀ raw ∈ TxShares.wrappedTxs (layout.ordinary ++ wrappers), ∃ payment,
      WrappedPayment.ofWrapper 0 raw = .ok payment := by
    intro raw member
    rw [wrapped] at member
    obtain ⟨position, inside, rfl⟩ := List.mem_iff_getElem.mp member
    have each := List.forall₂_iff_get.mp (mapM_eq_ok.mp payments)
    exact ⟨_, each.2 position inside (each.1 ▸ inside)⟩
  have plain : ∀ raw ∈ TxShares.ordinaryTxs (layout.ordinary ++ wrappers),
      BlobTx.isMarked raw = false ∧ Tx.rawPaysForBlobs raw = false := by
    intro raw member
    rw [ordinary] at member
    exact (ready.ordinary raw member).2
  obtain ⟨found, read⟩ := Process.exists_blockTxs holds plain
  have listed := Process.mapM_content_of_blockTxs read
  rw [wrapped, payments] at listed
  have same := (Except.ok.inj listed).symm
  refine ⟨_, Process.decode_eq_ok.mpr ⟨found, read, rfl, fun blob member => (ready.valid member).1,
    ready.settled.sorted, ?_⟩, same⟩
  have indexes := congrArg (List.flatMap WrappedPayment.shareIndexes) same
  rw [List.flatMap_map, List.flatMap_map] at indexes
  have count := ready.settled.indexes.length_eq
  rw [List.length_map] at count
  rw [ready.settled.blobs, List.length_map, ← count]
  exact congrArg List.length indexes

variable {shares : List Share} (made : data.square = .ok shares)
include made

/-- The blobs beside the share indexes of all payments are the slots where they start. -/
theorem placedBlobs_eq {wrapped : List WrappedPayment}
    (decoded : Process.decode data = .ok wrapped) : Process.placedBlobs wrapped data.blobs =
      entries.map fun entry => (UInt32.ofNat entry.1, entry.2.blob) := by
  obtain ⟨wrappers, written, rfl⟩ := blockData_eq_ok.mp contents
  obtain ⟨txShares, found, indexes⟩ := Process.ofTxs_of_square decoded made
  obtain ⟨other, again, declared, _⟩ := ready.ofTxs_eq_ok written
  obtain rfl : txShares = other := Except.ok.inj (found.symm.trans again)
  rw [ready.sortedIndexes_eq declared] at indexes
  have starts : Process.sortedIndexes wrapped =
      entries.map fun entry => UInt32.ofNat entry.1 := by
    have whole := congrArg (List.map UInt32.ofNat) indexes
    rw [List.map_map, List.map_map] at whole
    refine Eq.trans ?_ whole.symm
    exact (List.map_id _).symm.trans (List.map_congr_left fun index _ => by simp)
  change (Process.sortedIndexes wrapped).zip layout.blobs = _
  rw [starts, ready.settled.blobs, List.zip_map']

/-- A slot of the layout stands in the square where it starts. -/
theorem prefix_drop {entry : Nat × Slot} (member : entry ∈ entries) :
    entry.2.blob.shares <+: shares.drop entry.1 := by
  obtain ⟨wrappers, written, rfl⟩ := blockData_eq_ok.mp contents
  obtain ⟨txShares, found, declared, _⟩ := ready.ofTxs_eq_ok written
  apply (Square.prefix_drop_of_split made found _).2
  dsimp only
  rw [ready.sortedIndexes_eq declared, ready.settled.blobs, List.zip_map']
  exact List.mem_map_of_mem (f := fun entry : Nat × Slot => (entry.1, entry.2.blob)) member

/-- The shares of the square are in order. -/
theorem ordered : Ordered shares := by
  obtain ⟨_, _, rfl⟩ := blockData_eq_ok.mp contents
  exact Square.ordered_of_split made
    (fun blob member => (Blob.validate_eq_ok.mp (ready.valid member).1).1) ready.settled.sorted

/-- The share at which a slot starts stands in the namespace of its blob. -/
theorem spaceAt_start {entry : Nat × Slot} (member : entry ∈ entries) :
    Ordered.spaceAt shares entry.1 = entry.2.blob.ns := by
  obtain ⟨behind, split⟩ := ready.prefix_drop contents made member
  obtain ⟨share, rest, parts⟩ := List.length_pos_iff_exists_cons.mp entry.2.blob.length_shares_pos
  have stands : share.ns = .ok entry.2.blob.ns :=
    Blob.ns_of_mem_shares (by rw [parts]; exact List.mem_cons_self)
  have listed : shares[entry.1]? = some share := by
    rw [← List.head?_drop, ← split, parts]
    rfl
  rw [Ordered.spaceAt, listed, Option.map_some, Share.space_of_ns stands]
  rfl

/-- The share at a share index of a placed transaction stands in the namespace of the blob that the
index is for. -/
theorem spaceAt_shareIndex {placed : PlacedTx} (member : placed ∈ layout.placed) {position : Nat}
    {shareIndex : UInt32} (index : placed.shareIndexes[position]? = some shareIndex) {blob : Blob}
    (own : placed.candidate.blobs[position]? = some blob) :
    Ordered.spaceAt shares shareIndex.toNat = blob.ns := by
  obtain ⟨entry, stays, rfl, start⟩ := (ready.settled.starts placed member).2 position blob own
  obtain rfl := Option.some.inj (index.symm.trans start)
  rw [ready.toNat_start stays, ready.spaceAt_start contents made stays]

section Header

variable {header : AvailabilityHeader} {trees : RowTrees}
  (built : AvailabilityHeader.ofShares shares = .ok (header, trees))
  (power : isPowerOfTwo header.squareSize = true) (width : header.squareSize = layout.squareSize)
  (clear : trees.Clear header)
include built power width clear

/-- The square of the block has the commitment of a slot where the slot starts, when its rows are
clear. -/
theorem squareCommitment_eq {entry : Nat × Slot} (member : entry ∈ entries)
    {commitment : Digest} (paid : blobCommitment entry.2.blob threshold = .ok commitment) :
    squareCommitment trees header entry.1 entry.2.blob.shareCount threshold = .ok commitment := by
  obtain ⟨_, aligned, _, room⟩ := ready.settled.stacked.of_mem member
  obtain ⟨filled, _, value⟩ := blobCommitment_eq_ok.mp paid
  have count := Blob.length_shares filled
  have positive : 0 < entry.2.blob.shareCount := count ▸ entry.2.blob.length_shares_pos
  rw [← width] at aligned room
  obtain ⟨result, found, known⟩ := squareCommitment_of_dvd built power positive room
    (Nat.dvd_trans (subtreeWidth_dvd_blobAlignment power (by omega) threshold) aligned)
  have stands := ready.prefix_drop contents made member
  have nodes := nodesCommitment_of_stands (List.prefix_iff_eq_take.mp stands).symm threshold
  rw [count] at nodes
  rw [found, known clear, value, nodes]

/-- The payment of a placed transaction is accepted with the square of the block, when its rows
are clear. -/
theorem checkPayment_eq_ok {wrapped : List WrappedPayment}
    (decoded : Process.decode data = .ok wrapped) {placed : PlacedTx}
    (member : placed ∈ layout.placed) :
    Process.checkPayment ⟨header, trees, threshold, Process.placedBlobs wrapped data.blobs⟩
      placed.payment = .ok () := by
  have sound := ready.sound _ (ready.mem_candidates member)
  obtain ⟨length, starts⟩ := ready.settled.starts placed member
  refine Process.checkPayment_eq_ok.mpr ⟨sound.payment,
    WrappedPayment.checkSigners_eq_ok.mpr rfl, length.trans sound.count.symm,
    fun position shareIndex entry => ?_⟩
  obtain ⟨inside, _⟩ := List.getElem?_eq_some_iff.mp entry
  have bound : position < placed.candidate.blobs.length := length ▸ inside
  have own := List.getElem?_eq_getElem bound
  obtain ⟨declared, found, describes⟩ := sound.described position _ own
  obtain ⟨slot, stays, blob, start⟩ := starts position _ own
  obtain rfl : shareIndex = UInt32.ofNat slot.1 := Option.some.inj (entry.symm.trans start)
  rw [← blob] at describes
  refine Process.checkBlob_eq_ok.mpr ⟨declared, ?_, ?_, ?_⟩
  · rw [BlobPayment.getElem?_declared] at found
    exact found
  · obtain ⟨increasing, count⟩ := Process.sortedIndexes_of_square decoded made
    have keys : ((Process.placedBlobs wrapped data.blobs).map Prod.fst).Nodup := by
      change (((Process.sortedIndexes wrapped).zip data.blobs).map Prod.fst).Nodup
      rw [List.map_fst_zip (Nat.le_of_eq count)]
      exact increasing.imp fun below => UInt32.ne_of_lt below
    have listed : (UInt32.ofNat slot.1, slot.2.blob) ∈
        Process.placedBlobs wrapped data.blobs := by
      rw [ready.placedBlobs_eq contents made decoded]
      exact List.mem_map_of_mem (f := fun entry : Nat × Slot =>
        (UInt32.ofNat entry.1, entry.2.blob)) stays
    dsimp only
    rw [blobAt_eq_some keys listed, Option.map_some, describes.ns]
  · dsimp only
    rw [ready.toNat_start stays, ← describes.size]
    exact ready.squareCommitment_eq contents made built power width clear stays
      describes.commitment

end Header

end Layout.Ready

namespace Layout.Ready

variable {layout : Layout} {candidates : List BlobCandidate} {threshold : Nat}
  {entries : List (Nat × Slot)} (ready : layout.Ready candidates threshold entries)
include ready

/-- The block of a layout whose square may be extended makes a square with a header. -/
theorem exists_header (positive : 0 < layout.squareSize) (narrow : layout.squareSize ≤ 128) :
    ∃ data shares header trees, layout.blockData = .ok data ∧
      data.squareSize.toNat = layout.squareSize ∧ data.square = .ok shares ∧
      AvailabilityHeader.ofShares shares = .ok (header, trees) ∧
      header.squareSize = layout.squareSize := by
  obtain ⟨wrappers, written⟩ := ready.exists_wrappers
  have words : 128 * 128 < UInt64.size := by decide
  have countable := (Nat.mul_le_mul narrow narrow).trans_lt words
  obtain ⟨shares, made⟩ := ready.exists_split written countable
  have size : (UInt64.ofNat layout.squareSize).toNat = layout.squareSize :=
    UInt64.toNat_ofNat_of_lt' (by omega)
  have full := Square.length_of_split made
  have contents := blockData_eq_ok.mpr ⟨wrappers, written, rfl⟩
  have square : BlockData.square ⟨layout.ordinary ++ wrappers, layout.blobs,
      UInt64.ofNat layout.squareSize⟩ = .ok shares := by
    rw [BlockData.square, size]
    exact made
  obtain ⟨header, trees, built⟩ :=
    (ready.ordered contents square).exists_ofShares positive narrow full
  exact ⟨_, shares, header, trees, contents, size, square, built,
    AvailabilityHeader.squareSize_of_ofShares built full⟩

/-- A validator accepts the block of a layout when the rows of its square are clear. -/
theorem accepted_of_clear {consts : AppConsts} (same : consts.subtreeRootThreshold = threshold)
    (valid : consts.isValidSquareSize layout.squareSize = true) {data : BlockData}
    (contents : layout.blockData = .ok data)
    (size : data.squareSize.toNat = layout.squareSize) {shares : List Share}
    (made : data.square = .ok shares) {header : AvailabilityHeader} {trees : RowTrees}
    (built : AvailabilityHeader.ofShares shares = .ok (header, trees))
    (width : header.squareSize = layout.squareSize) (clear : trees.Clear header) (height : UInt64)
    (proposer : Address) :
    processProposal ⟨⟨height, proposer, header.hash⟩, data⟩ consts = .accepted := by
  have power := (AppConsts.isValidSquareSize_iff.mp valid).1
  obtain ⟨wrapped, decoded, payments⟩ := ready.exists_decoded contents
  refine processProposal_eq_accepted.mpr (Process.verify_eq_ok.mpr ⟨wrapped, shares, header,
    trees, size ▸ valid, decoded, made, built, rfl, ?_⟩)
  refine Process.checkCommitments_eq_ok.mpr ⟨fun payment member => ?_, ?_⟩
  · have listed : payment.content ∈ layout.placed.map PlacedTx.payment :=
      payments ▸ List.mem_map_of_mem member
    obtain ⟨placed, inside, equal⟩ := List.mem_map.mp listed
    rw [← Process.checkPayment_content, ← equal, same]
    exact ready.checkPayment_eq_ok contents made built (width ▸ power) width clear decoded inside
  · exact (Process.decode_eq_ok.mp decoded).choose_spec.2.2.2.2

/-- The block of a layout is a proposal, and a validator accepts it unless rows of its square are
taken for one another. -/
theorem exists_accepted {consts : AppConsts} (same : consts.subtreeRootThreshold = threshold)
    (valid : consts.isValidSquareSize layout.squareSize = true)
    (narrow : layout.squareSize ≤ 128) :
    ∃ prepared, PreparedProposal.ofLayout layout = .ok prepared ∧
      ∀ height proposer,
        processProposal ⟨⟨height, proposer, prepared.dataHash⟩, prepared.data⟩ consts = .accepted ∨
          Sha256.Collision prepared.data.rowMessages := by
  have power := (AppConsts.isValidSquareSize_iff.mp valid).1
  obtain ⟨data, shares, header, trees, contents, size, made, built, width⟩ :=
    ready.exists_header (pos_of_isPowerOfTwo power) narrow
  refine ⟨⟨data, header, header.hash⟩, ?_, fun height proposer => ?_⟩
  · rw [PreparedProposal.ofLayout, contents]
    refine mapError_eq_ok.mpr ?_
    rw [PreparedProposal.ofBlockData, made]
    dsimp only
    rw [built]
  · rcases Square.clear_or_collision built with clear | collision
    · exact .inl (ready.accepted_of_clear same valid contents size made built width clear height
        proposer)
    · right
      rw [BlockData.rowMessages_of_square made]
      exact collision

end Layout.Ready

/-- Candidates that fit have a layout that is ready for its block, in a square of a valid width. -/
theorem Layout.exists_ready {candidates : List Candidate} {consts : AppConsts}
    (bounded : consts.Bounded)
    (sound : ∀ candidate ∈ candidates, candidate.Sound consts.subtreeRootThreshold)
    (fits : (Usage.ofCandidates candidates).fits consts = true) :
    ∃ estimate layout entries, Estimate.ofCandidates candidates consts = .ok estimate ∧
      finalize? estimate.squareSize estimate.nonReservedStart candidates = some layout ∧
      layout.Ready (candidates.filterMap Candidate.blob?) consts.subtreeRootThreshold entries ∧
      consts.isValidSquareSize layout.squareSize = true := by
  obtain ⟨estimate, estimated, valid, room, reserved⟩ := Estimate.exists_ofUsage bounded fits
  have positive := pos_of_isPowerOfTwo (AppConsts.isValidSquareSize_iff.mp valid).1
  have narrow : estimate.squareSize ≤ 128 :=
    Nat.le_trans (AppConsts.isValidSquareSize_iff.mp valid).2.2 bounded.extended
  have cells := Nat.mul_le_mul narrow narrow
  have words : 128 * 128 < UInt32.size ∧ 128 * 128 + 128 ≤ UInt64.size ∧ 128 * 128 ≤ 2 ^ 63 := by
    decide
  have reach : estimate.nonReservedStart ≤ estimate.squareSize * estimate.squareSize := by
    rw [reserved]
    exact Nat.le_trans (Nat.le_add_right _ _) room
  obtain ⟨layout, found⟩ := exists_finalize_of_le positive (by omega)
    (show estimate.nonReservedStart + estimate.squareSize ≤ UInt64.size by omega) candidates
    fun content member blob own => Nat.le_trans (Usage.shareCount_le_shares member own) (by omega)
  obtain ⟨width, start, ordinary, entries, settled⟩ := settled_of_finalize positive found
  obtain ⟨txBytes, wrapperBytes⟩ := Usage.bytes_le_of_fits bounded fits
  obtain ⟨txTotal, wrapperTotal⟩ := Usage.bytes_ofCandidates candidates
  rw [txTotal] at txBytes
  rw [wrapperTotal] at wrapperBytes
  refine ⟨estimate, layout, entries, estimated, found, ⟨settled, ?_, ?_, by rwa [ordinary],
    wrapperBytes, ?_, ?_⟩, by rwa [width]⟩
  · intro tx member
    rw [ordinary] at member
    obtain ⟨candidate, inside, same⟩ := List.mem_filterMap.mp member
    have known := sound candidate inside
    cases candidate with
    | ordinary own => exact Option.some.inj same ▸ known
    | blob content => contradiction
  · intro content member
    obtain ⟨candidate, inside, same⟩ := List.mem_filterMap.mp member
    have known := sound candidate inside
    cases candidate with
    | ordinary own => contradiction
    | blob own => exact Option.some.inj same ▸ known
  · rw [ordinary, start, reserved, ← txTotal, ← wrapperTotal]
    exact Nat.le_refl _
  · rw [width, start]
    exact reach

/-- The candidates that a proposer goes on with have a layout that is ready for its block, in a square
that may be extended, and the proposal is made of that layout. -/
theorem PreparedProposal.exists_layout {settings : ConsensusSettings} {consts : AppConsts}
    (taken : settings.consts = .ok consts) (raws : List Bytes) (policy : PriorityPolicy) :
    ∃ (estimate : Estimate) (layout : Layout) (entries : List (Nat × Slot)),
      Layout.finalize? estimate.squareSize estimate.nonReservedStart
        (fit (Candidate.collect raws consts) policy consts) = some layout ∧
      layout.Ready ((fit (Candidate.collect raws consts) policy consts).filterMap Candidate.blob?)
        consts.subtreeRootThreshold entries ∧
      consts.isValidSquareSize layout.squareSize = true ∧ layout.squareSize ≤ 128 ∧
      prepareProposal raws policy consts = ofLayout layout := by
  have bounded := ConsensusSettings.bounded_of_consts taken
  obtain ⟨sub, fits⟩ := fit_spec (Candidate.collect raws consts) policy consts
  have sound : ∀ candidate ∈ fit (Candidate.collect raws consts) policy consts,
      candidate.Sound consts.subtreeRootThreshold :=
    fun candidate member => Candidate.sound_of_mem_collect (sub.subset member)
  obtain ⟨estimate, layout, entries, estimated, found, ready, valid⟩ :=
    Layout.exists_ready bounded sound fits
  have narrow : layout.squareSize ≤ 128 :=
    Nat.le_trans (AppConsts.isValidSquareSize_iff.mp valid).2.2 bounded.extended
  refine ⟨estimate, layout, entries, found, ready, valid, narrow, ?_⟩
  rw [prepareProposal, ofCandidates, estimated]
  dsimp only
  rw [found]

namespace PreparedProposal

/-- The block of a layout is published. -/
theorem blockData_of_ofLayout {layout : Layout} {prepared : PreparedProposal}
    (made : ofLayout layout = .ok prepared) : layout.blockData = .ok prepared.data := by
  unfold ofLayout at made
  cases contents : layout.blockData with
  | error cause =>
    rw [contents] at made
    contradiction
  | ok data =>
    rw [contents] at made
    have built := mapError_eq_ok.mp made
    unfold ofBlockData at built
    cases square : data.square with
    | error cause =>
      rw [square] at built
      contradiction
    | ok shares =>
      rw [square] at built
      dsimp only at built
      cases header : AvailabilityHeader.ofShares shares with
      | error cause =>
        rw [header] at built
        contradiction
      | ok pair =>
        rw [header] at built
        rw [← Except.ok.inj built]

/-- The block for candidates that have an estimate holds all their blobs when these are packed inside
the square. -/
theorem blobs_of_packed {raws : List Bytes} {policy : PriorityPolicy} {consts : AppConsts}
    {estimate : Estimate} {prepared : PreparedProposal}
    (estimated : Estimate.ofCandidates (Candidate.collect raws consts) consts = .ok estimate)
    (positive : 0 < estimate.squareSize)
    (narrow : estimate.squareSize * estimate.squareSize < UInt32.size)
    (inside : estimate.nonReservedStart ≤ estimate.squareSize * estimate.squareSize)
    (packed : Layout.packedEnd estimate.squareSize estimate.nonReservedStart
      ((Layout.visitOrder ((Candidate.collect raws consts).filterMap Candidate.blob?)).map
        fun slot => slot.blob.shareCount) ≤ estimate.squareSize * estimate.squareSize)
    (made : prepareProposal raws policy consts = .ok prepared) :
    prepared.data.blobs = sortByNamespace
      (((Candidate.collect raws consts).filterMap Candidate.blob?).flatMap BlobCandidate.blobs) := by
  rw [prepareProposal, fit, estimated, ofCandidates, estimated] at made
  dsimp only at made
  cases found : Layout.finalize? estimate.squareSize estimate.nonReservedStart
      (Candidate.collect raws consts) with
  | none =>
    rw [found] at made
    contradiction
  | some layout =>
    rw [found] at made
    obtain ⟨width, _⟩ := Layout.settled_of_finalize positive found
    have keepsAll := (Layout.removed_eq_nil_iff positive narrow inside found).mpr packed
    have sorted := (Layout.contents_of_finalize (by rwa [width]) found).2
    obtain ⟨wrappers, _, contents⟩ := Layout.blockData_eq_ok.mp (blockData_of_ofLayout made)
    rw [contents, ← Layout.map_candidate_placed found keepsAll, List.flatMap_map]
    exact sorted

/-- The block for two short ordinary transactions and one that pays for a blob of one byte holds the
blob. -/
theorem blobs_of_single {ns : Namespace} {commitment : Digest} {raw : Bytes}
    {policy : PriorityPolicy} {prepared : PreparedProposal}
    (read : Candidate.ofBytes raw AppVersion.v3.consts =
      .ok (.blob (BlobCandidate.single ns commitment)))
    (made : prepareProposal [[1, 2], raw, [3]] policy AppVersion.v3.consts = .ok prepared) :
    prepared.data.blobs = [.single ns] := by
  have collected := Candidate.collect_single read
  have estimated : Estimate.ofCandidates (Candidate.collect [[1, 2], raw, [3]]
      AppVersion.v3.consts) AppVersion.v3.consts = .ok ⟨4, 2⟩ := by
    have two : Usage.contribution (.ordinary [1, 2]) = ⟨3, 0, 0⟩ :=
      Usage.contribution_ordinary_of_lt (by decide)
    have one : Usage.contribution (.ordinary [3]) = ⟨2, 0, 0⟩ :=
      Usage.contribution_ordinary_of_lt (by decide)
    have usage : Usage.ofCandidates [.ordinary [1, 2],
        .blob (BlobCandidate.single ns commitment), .ordinary [3]] = ⟨5, 208, 1⟩ := by
      simp only [Usage.ofCandidates_eq, List.map_cons, List.map_nil, Usage.contribution_single, two,
        one]
      rfl
    rw [collected, Estimate.ofCandidates, usage]
    decide +kernel
  have order : Layout.visitOrder ((Candidate.collect [[1, 2], raw, [3]]
      AppVersion.v3.consts).filterMap Candidate.blob?) = [⟨0, 0, .single ns⟩] := by
    rw [collected]
    exact List.mergeSort_singleton _
  have packed : Layout.packedEnd 4 2 [1] ≤ 4 * 4 := by decide
  rw [blobs_of_packed estimated (by decide) (by decide) (by decide) (by rwa [order]) made, collected]
  exact List.mergeSort_singleton _

end PreparedProposal

/-- For all submitted transactions and every order of priority, parameters that are taken lead to a
proposal, and a validator accepts every block with its contents and hash, unless two messages
that are hashed for the rows of its square have one digest. -/
theorem accepted_of_prepareProposal {settings : ConsensusSettings} {consts : AppConsts}
    (taken : settings.consts = .ok consts) (raws : List Bytes) (policy : PriorityPolicy) :
    ∃ prepared, prepareProposal raws policy consts = .ok prepared ∧
      ∀ height proposer,
        processProposal ⟨⟨height, proposer, prepared.dataHash⟩, prepared.data⟩ consts = .accepted ∨
          Sha256.Collision prepared.data.rowMessages := by
  obtain ⟨_, layout, entries, _, ready, valid, narrow, published⟩ :=
    PreparedProposal.exists_layout taken raws policy
  obtain ⟨prepared, made, accepted⟩ := ready.exists_accepted rfl valid narrow
  exact ⟨prepared, published.trans made, accepted⟩

/-- Two ordinary transactions, and between them one that pays for a blob, make a proposal with the
blob that validators accept. -/
theorem accepted_of_blob_transaction :
    ConsensusSettings.default.consts = .ok AppVersion.v3.consts ∧
      ∃ raw content prepared, Candidate.ofBytes raw AppVersion.v3.consts = .ok (.blob content) ∧
        prepareProposal [[1, 2], raw, [3]] PriorityPolicy.shortest AppVersion.v3.consts =
          .ok prepared ∧
        prepared.data.blobs = [.oneByte] ∧
        ∀ height proposer, processProposal ⟨⟨height, proposer, prepared.dataHash⟩, prepared.data⟩
            AppVersion.v3.consts = .accepted ∨
          Sha256.Collision prepared.data.rowMessages := by
  have taken : ConsensusSettings.default.consts = .ok AppVersion.v3.consts := by rfl
  obtain ⟨raw, commitment, read⟩ := Candidate.exists_oneByte
  obtain ⟨prepared, made, accepted⟩ :=
    accepted_of_prepareProposal taken [[1, 2], raw, [3]] PriorityPolicy.shortest
  exact ⟨taken, raw, _, prepared, read, made, PreparedProposal.blobs_of_single read made, accepted⟩

end DataSquare
