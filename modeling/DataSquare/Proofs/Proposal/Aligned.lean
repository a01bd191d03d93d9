import DataSquare.Proofs.Mempool.Candidate
import DataSquare.Proofs.Proposal.Declared

/-!
# Where blobs start in accepted blocks

A proposer starts every blob at a multiple of its alignment. A validator does not lay the blobs out
again: it looks the declared commitment up at the share index, and finds it only where the subtrees
of the declared number of shares are nodes of the rows, at multiples of the largest width of these
subtrees. That width divides the alignment and is mostly less, it is one up to the threshold. When
the payments of a block describe its blobs, nothing else is asked of the share indexes.
-/
namespace DataSquare

/-- Blobs of no more shares than the threshold have subtrees of one share. -/
theorem subtreeWidth_of_le {shareCount threshold : Nat} (few : shareCount ≤ threshold) :
    subtreeWidth shareCount threshold = 1 := by
  have least := pos_of_isPowerOfTwo (isPowerOfTwo_subtreeWidth shareCount threshold)
  have one : ceilDiv shareCount (max threshold 1) ≤ 1 := ceilDiv_le (by omega)
  have widest : subtreeWidth shareCount threshold ≤ 1 :=
    Nat.le_trans (Nat.min_le_left _ _) (ceilPowerOfTwo_le (by decide) one)
  omega

namespace Process

/-- What a validator has found out about a block when it comes to the payments. -/
structure HeaderVerified (block : Block) (consts : AppConsts) (wrapped : List WrappedPayment)
    (shares : List Share) (header : AvailabilityHeader) (trees : RowTrees) : Prop where
  /-- The square may have its width. -/
  allowed : consts.isValidSquareSize block.data.squareSize.toNat = true
  /-- The contents decode. -/
  decoded : decode block.data = .ok wrapped
  /-- The contents make the square. -/
  made : block.data.square = .ok shares
  /-- The square has the header. -/
  built : AvailabilityHeader.ofShares shares = .ok (header, trees)
  /-- The header is the declared one. -/
  declared : header.hash = block.header.dataHash

/-- Whether payments are sound on their own and describe the blobs at their share indexes. -/
structure Described (wrapped : List WrappedPayment) (blobs : List Blob) (threshold : Nat) :
    Prop where
  /-- The payments are sound on their own. -/
  valid : ∀ payment ∈ wrapped, payment.payment.validate = .ok ()
  /-- The account that pays signs alone. -/
  signed : ∀ payment ∈ wrapped, payment.checkSigners = .ok ()
  /-- There is a share index for each blob that is paid for. -/
  counted : ∀ payment ∈ wrapped, payment.shareIndexes.length = payment.payment.blobCount
  /-- Each declaration describes the blob at its share index. -/
  describes : ∀ payment ∈ wrapped, ∀ (position : Nat) (shareIndex : UInt32),
    payment.shareIndexes[position]? = some shareIndex →
      ∃ declared blob, payment.declared? position = some declared ∧
        (shareIndex, blob) ∈ placedBlobs wrapped blobs ∧ declared.Describes blob threshold

/-- Whether a payment declares so many shares at a share index that they have subtrees there. -/
def DeclaredAligned (wrapped : List WrappedPayment) (threshold : Nat) (shareIndex : UInt32) :
    Prop :=
  ∃ payment ∈ wrapped, ∃ (position : Nat) (declared : DeclaredBlob),
    payment.shareIndexes[position]? = some shareIndex ∧
      payment.declared? position = some declared ∧
      subtreeWidth declared.shareCount threshold ∣ shareIndex.toNat

/-- Whether all blobs start at multiples of the widths of their subtrees. -/
def SubtreesAligned (wrapped : List WrappedPayment) (blobs : List Blob) (threshold : Nat) : Prop :=
  ∀ (shareIndex : UInt32) (blob : Blob), (shareIndex, blob) ∈ placedBlobs wrapped blobs →
    subtreeWidth blob.shareCount threshold ∣ shareIndex.toNat

section Placed

variable {data : BlockData} {wrapped : List WrappedPayment} {shares : List Share}
  {shareIndex : UInt32} {blob : Blob} (member : (shareIndex, blob) ∈ placedBlobs wrapped data.blobs)
include member

/-- A share index of a placed blob is one of a payment. -/
theorem exists_payment_of_placed :
    ∃ payment ∈ wrapped, ∃ position : Nat, payment.shareIndexes[position]? = some shareIndex := by
  have sorted : shareIndex ∈ sortedIndexes wrapped := (List.of_mem_zip member).1
  have listed := (List.mergeSort_perm _ _).mem_iff.mp sorted
  obtain ⟨payment, inside, own⟩ := List.mem_flatMap.mp listed
  exact ⟨payment, inside, List.mem_iff_getElem?.mp own⟩

variable (decoded : decode data = .ok wrapped) (made : data.square = .ok shares)
include decoded made

/-- A placed blob is the one that is found at its share index. -/
theorem blobAt_of_placed : blobAt (placedBlobs wrapped data.blobs) shareIndex = some blob := by
  obtain ⟨increasing, count⟩ := sortedIndexes_of_square decoded made
  apply blobAt_eq_some _ member
  change (((sortedIndexes wrapped).zip data.blobs).map Prod.fst).Nodup
  rw [List.map_fst_zip (Nat.le_of_eq count)]
  exact increasing.imp fun below => UInt32.ne_of_lt below

/-- A placed blob is written and stands in the square at its share index. -/
theorem stands_of_placed :
    blob.IsWritable ∧ blob.shares <+: shares.drop shareIndex.toNat := by
  obtain ⟨payment, inside, position, own⟩ := exists_payment_of_placed member
  obtain ⟨other, _, found, writable, stands⟩ := exists_blobAt decoded made
    (List.mem_flatMap.mpr ⟨payment, inside, List.mem_of_getElem? own⟩)
  rw [blobAt_of_placed member decoded made] at found
  have same : blob = other := Option.some.inj found
  rw [same]
  exact ⟨writable, stands⟩

end Placed

section Verified

variable {block : Block} {consts : AppConsts} {wrapped : List WrappedPayment}
  {shares : List Share} {header : AvailabilityHeader} {trees : RowTrees}

/-- An accepted block has a verified header and accepted payments. -/
theorem exists_headerVerified (accepted : processProposal block consts = .accepted) :
    ∃ wrapped shares header trees, HeaderVerified block consts wrapped shares header trees ∧
      ∀ payment ∈ wrapped, checkPayment ⟨header, trees, consts.subtreeRootThreshold,
        placedBlobs wrapped block.data.blobs⟩ payment = .ok () := by
  obtain ⟨wrapped, shares, header, trees, allowed, decoded, made, built, declared, paid⟩ :=
    verify_eq_ok.mp (processProposal_eq_accepted.mp accepted)
  exact ⟨wrapped, shares, header, trees, ⟨allowed, decoded, made, built, declared⟩,
    (checkCommitments_eq_ok.mp paid).1⟩

variable (verified : HeaderVerified block consts wrapped shares header trees)
include verified

/-- The width of the square is a power of two. -/
theorem HeaderVerified.power : isPowerOfTwo header.squareSize = true := by
  rw [AvailabilityHeader.squareSize_of_ofShares verified.built
    (Square.length_of_split verified.made)]
  exact (AppConsts.isValidSquareSize_iff.mp verified.allowed).1

/-- A block with a verified header is accepted exactly when all its payments are. -/
theorem HeaderVerified.accepted_iff : processProposal block consts = .accepted ↔
    ∀ payment ∈ wrapped, checkPayment ⟨header, trees, consts.subtreeRootThreshold,
      placedBlobs wrapped block.data.blobs⟩ payment = .ok () := by
  constructor
  · intro accepted
    obtain ⟨_, _, _, _, other, paid⟩ := exists_headerVerified accepted
    obtain rfl := Except.ok.inj (verified.decoded.symm.trans other.decoded)
    obtain rfl := Except.ok.inj (verified.made.symm.trans other.made)
    obtain ⟨rfl, rfl⟩ := Prod.mk.inj (Except.ok.inj (verified.built.symm.trans other.built))
    exact paid
  · intro paid
    apply processProposal_eq_accepted.mpr
    apply verify_eq_ok.mpr
    refine ⟨wrapped, shares, header, trees, verified.allowed, verified.decoded, verified.made,
      verified.built, verified.declared, ?_⟩
    apply checkCommitments_eq_ok.mpr
    exact ⟨paid, (decode_eq_ok.mp verified.decoded).choose_spec.2.2.2.2⟩

/-- In an accepted block a blob starts at a multiple of the width that is looked up for the declared
number of shares. -/
theorem HeaderVerified.dvd_of_checkPayment {payment : WrappedPayment} {position : Nat}
    {shareIndex : UInt32}
    (paid : checkPayment ⟨header, trees, consts.subtreeRootThreshold,
      placedBlobs wrapped block.data.blobs⟩ payment = .ok ())
    (own : payment.shareIndexes[position]? = some shareIndex) :
    ∃ declared, payment.declared? position = some declared ∧
      subtreeWidth declared.shareCount consts.subtreeRootThreshold ∣ shareIndex.toNat := by
  have checked := (checkPayment_eq_ok.mp paid).2.2.2 position shareIndex own
  obtain ⟨declared, declares, _, found⟩ := checkBlob_eq_ok.mp checked
  exact ⟨declared, declares, (dvd_of_squareCommitment_eq_ok verified.power found).2.2⟩

/-- A payment that describes its blobs is accepted when they start at multiples of the widths of
their subtrees, if the rows of the square are clear. -/
theorem HeaderVerified.checkPayment_of_dvd (clear : trees.Clear header)
    (described : Described wrapped block.data.blobs consts.subtreeRootThreshold)
    (aligned : SubtreesAligned wrapped block.data.blobs consts.subtreeRootThreshold)
    {payment : WrappedPayment} (member : payment ∈ wrapped) :
    checkPayment ⟨header, trees, consts.subtreeRootThreshold,
      placedBlobs wrapped block.data.blobs⟩ payment = .ok () := by
  apply checkPayment_eq_ok.mpr
  refine ⟨described.valid payment member, described.signed payment member,
    described.counted payment member, ?_⟩
  intro position shareIndex own
  obtain ⟨declared, blob, declares, placed, describes⟩ :=
    described.describes payment member position shareIndex own
  obtain ⟨writable, stands⟩ := stands_of_placed placed verified.decoded verified.made
  obtain ⟨nonempty, _⟩ := blobCommitment_eq_ok.mp describes.commitment
  have count := Blob.length_shares nonempty
  have positive := blob.length_shares_pos
  have room := stands.length_le
  rw [List.length_drop, (AvailabilityHeader.length_of_ofShares verified.built).2.2] at room
  obtain ⟨commitment, found, value⟩ := squareCommitment_of_dvd verified.built verified.power
    (show 0 < blob.shareCount by omega)
    (show shareIndex.toNat + blob.shareCount ≤ header.squareSize * header.squareSize by omega)
    (aligned shareIndex blob placed)
  have own := describes.commitment
  rw [blobCommitment_of_stands nonempty writable stands, List.map_drop, ← value clear] at own
  apply checkBlob_eq_ok.mpr
  refine ⟨declared, declares, ?_, ?_⟩
  · rw [blobAt_of_placed placed verified.decoded verified.made, Option.map_some, describes.ns]
  · rw [← describes.size]
    exact found.trans own

/-- A block whose payments describe its blobs is accepted exactly when these start at multiples of
the widths of their subtrees, if the rows of the square are clear. -/
theorem HeaderVerified.accepted_iff_dvd (clear : trees.Clear header)
    (described : Described wrapped block.data.blobs consts.subtreeRootThreshold) :
    processProposal block consts = .accepted ↔
      SubtreesAligned wrapped block.data.blobs consts.subtreeRootThreshold := by
  rw [verified.accepted_iff]
  constructor
  · intro paid shareIndex blob placed
    obtain ⟨payment, member, position, own⟩ := exists_payment_of_placed placed
    obtain ⟨declared, declares, aligned⟩ := verified.dvd_of_checkPayment (paid payment member) own
    obtain ⟨other, found, again, listed, describes⟩ :=
      described.describes payment member position shareIndex own
    have sameDeclared : declared = other := Option.some.inj (declares.symm.trans again)
    have sameBlob : blob = found := Option.some.inj
      ((blobAt_of_placed placed verified.decoded verified.made).symm.trans
        (blobAt_of_placed listed verified.decoded verified.made))
    rw [sameDeclared, DeclaredBlob.shareCount, ← describes.size] at aligned
    rw [sameBlob]
    exact aligned
  · intro aligned payment member
    exact verified.checkPayment_of_dvd clear described aligned member

end Verified

end Process

/-- In an accepted block every blob stands at its share index, a multiple of the width of subtrees
for the number of shares that its payment declares. A block whose payments describe its blobs is
accepted exactly when these start at multiples of the widths of their own subtrees, unless two
messages that are hashed for its rows have one digest: a greater alignment is not asked for. -/
theorem starts_of_processProposal (block : Block) (consts : AppConsts) :
    (processProposal block consts = .accepted → ∃ wrapped shares,
      Process.decode block.data = .ok wrapped ∧ block.data.square = .ok shares ∧
      (Process.placedBlobs wrapped block.data.blobs).map Prod.snd = block.data.blobs ∧
      ∀ (shareIndex : UInt32) (blob : Blob),
        (shareIndex, blob) ∈ Process.placedBlobs wrapped block.data.blobs →
          blob.shares <+: shares.drop shareIndex.toNat ∧
          Process.DeclaredAligned wrapped consts.subtreeRootThreshold shareIndex) ∧
    ∀ wrapped shares header trees,
      Process.HeaderVerified block consts wrapped shares header trees →
      Process.Described wrapped block.data.blobs consts.subtreeRootThreshold →
      ((processProposal block consts = .accepted ↔
        Process.SubtreesAligned wrapped block.data.blobs consts.subtreeRootThreshold) ∨
        Sha256.Collision block.data.rowMessages) := by
  constructor
  · intro accepted
    obtain ⟨wrapped, shares, header, trees, verified, paid⟩ :=
      Process.exists_headerVerified accepted
    have count := (Process.sortedIndexes_of_square verified.decoded verified.made).2
    refine ⟨wrapped, shares, verified.decoded, verified.made, List.map_snd_zip (Nat.le_of_eq
      count.symm), ?_⟩
    intro shareIndex blob placed
    obtain ⟨payment, member, position, own⟩ := Process.exists_payment_of_placed placed
    obtain ⟨declared, declares, aligned⟩ := verified.dvd_of_checkPayment (paid payment member) own
    constructor
    · exact (Process.stands_of_placed placed verified.decoded verified.made).2
    · exact ⟨payment, member, position, declared, own, declares, aligned⟩
  · intro wrapped shares header trees verified described
    rcases Square.clear_or_collision verified.built with clear | collision
    · exact .inl (verified.accepted_iff_dvd clear described)
    · right
      rw [BlockData.rowMessages_of_square verified.made]
      exact collision

/-- A blob of two shares in the lowest namespace for users. -/
def Blob.twoShares : Blob := ⟨Namespace.lowestUser, List.replicate 500 7, 0⟩

/-- The blob of two shares may be published. -/
theorem Blob.validate_twoShares : Blob.twoShares.validate = .ok () :=
  Blob.validate_eq_ok.mpr ⟨by rfl, List.cons_ne_nil _ _, by decide⟩

/-- The blob of two shares has as many. -/
theorem Blob.length_shares_twoShares : Blob.twoShares.shares.length = 2 := by
  have size : Blob.twoShares.data.length = 500 := List.length_replicate
  rw [Blob.length_shares (List.cons_ne_nil _ _), Blob.shareCount, Blob.size, size]
  rfl

/-- The blob of two shares is written. -/
theorem Blob.isWritable_twoShares : Blob.twoShares.IsWritable := by
  have size : Blob.twoShares.data.length = 500 := List.length_replicate
  rw [Blob.IsWritable, size]
  decide

/-- The declaration of the blob of two shares. -/
def DeclaredBlob.twoShares (commitment : Digest) : DeclaredBlob :=
  ⟨Namespace.lowestUser, 500, commitment, 0⟩

/-- The index wrapper of the payment for two shares, with the second share of the square as their
start. -/
def IndexWrapper.misplaced (commitment : Digest) : IndexWrapper :=
  ⟨Format.tx.encode (Tx.forBlob (.replicate 20 0) (DeclaredBlob.twoShares commitment)), [1]⟩

/-- The contents of a block of width two whose only blob, of two shares, starts at the second
share. -/
def BlockData.misplaced (commitment : Digest) : BlockData :=
  ⟨[Format.indexWrapper.encode (IndexWrapper.misplaced commitment)], [Blob.twoShares], 2⟩

/-- The payment in the index wrapper. -/
def WrappedPayment.misplaced (commitment : Digest) : WrappedPayment :=
  ⟨0, [.replicate 20 0], ⟨.replicate 20 0, [Namespace.lowestUser], [500], [commitment], [0]⟩, [1]⟩

section Misplaced

variable (commitment : Digest)

/-- The index wrapper is written. -/
theorem IndexWrapper.toBytes_misplaced : (IndexWrapper.misplaced commitment).toBytes =
    .ok (Format.indexWrapper.encode (IndexWrapper.misplaced commitment)) := by
  apply IndexWrapper.toBytes_eq_ok.mpr
  constructor
  · rw [IndexWrapper.misplaced, Tx.length_forBlob]
    change 182 + 20 + 4 * 1 ≤ Wire.sizeLimit
    decide
  · rfl

/-- The transactions of the block are the payment. -/
theorem BlockData.blockTxs_misplaced : (BlockData.misplaced commitment).txs.zipIdx.mapM
    (fun (raw, index) => WrappedPayment.ofBlockTx? index raw) =
      .ok [some (WrappedPayment.misplaced commitment)] := by
  obtain ⟨marked, back, _⟩ :=
    IndexWrapper.ofBytes_of_toBytes (IndexWrapper.toBytes_misplaced commitment)
  have wraps : WrappedPayment.ofWrapper 0
      (Format.indexWrapper.encode (IndexWrapper.misplaced commitment)) =
        .ok (WrappedPayment.misplaced commitment) :=
    WrappedPayment.ofWrapper_eq_ok.mpr ⟨_, _, _, back, Tx.ofBytes_forBlob _ _, rfl, rfl⟩
  apply mapM_eq_ok.mpr
  apply List.Forall₂.cons _ .nil
  exact WrappedPayment.ofBlockTx?_eq_ok.mpr (.inl ⟨marked, _, wraps, rfl⟩)

/-- The contents of the block decode. -/
theorem BlockData.decode_misplaced : Process.decode (BlockData.misplaced commitment) =
    .ok [WrappedPayment.misplaced commitment] := by
  apply Process.decode_eq_ok.mpr
  refine ⟨_, BlockData.blockTxs_misplaced commitment, rfl, ?_, List.pairwise_singleton _ _, rfl⟩
  intro blob member
  rw [List.mem_singleton.mp member]
  exact Blob.validate_twoShares

/-- The block has no ordinary transactions. -/
theorem TxShares.ordinaryTxs_misplaced :
    ordinaryTxs (BlockData.misplaced commitment).txs = [] := by
  have marked :=
    (IndexWrapper.ofBytes_of_toBytes (IndexWrapper.toBytes_misplaced commitment)).1
  rw [ordinaryTxs, BlockData.misplaced, List.filter_cons_of_neg (by simp [marked]),
    List.filter_nil]

/-- The index wrappers of the block. -/
theorem TxShares.wrappedTxs_misplaced : wrappedTxs (BlockData.misplaced commitment).txs =
    [Format.indexWrapper.encode (IndexWrapper.misplaced commitment)] := by
  have marked :=
    (IndexWrapper.ofBytes_of_toBytes (IndexWrapper.toBytes_misplaced commitment)).1
  rw [wrappedTxs, BlockData.misplaced, List.filter_cons_of_pos marked, List.filter_nil]

/-- The stream of the index wrapper has 208 bytes. -/
theorem IndexWrapper.length_stream_misplaced : (Compact.stream
    [Format.indexWrapper.encode (IndexWrapper.misplaced commitment)]).length = 208 := by
  have size := (IndexWrapper.ofBytes_of_toBytes (IndexWrapper.toBytes_misplaced commitment)).2.2
  rw [Compact.length_stream_singleton, size, IndexWrapper.misplaced, Tx.length_forBlob]
  simp [Varint.size]

/-- The transactions of the block are written to streams, with one index. -/
theorem TxShares.ofTxs_misplaced : ofTxs (BlockData.misplaced commitment).txs =
    .ok (ofStreams (BlockData.misplaced commitment).txs [1]) := by
  apply ofTxs_eq_ok.mpr
  refine ⟨?_, ?_, [1], ?_, rfl⟩
  · rw [ordinaryTxs_misplaced]
    decide
  · rw [wrappedTxs_misplaced, IndexWrapper.length_stream_misplaced]
    decide
  · exact Process.declaredIndexes_of_blockTxs (BlockData.blockTxs_misplaced commitment)

/-- The index wrapper takes one share. -/
theorem TxShares.shares_misplaced : ∃ first,
    (ofStreams (BlockData.misplaced commitment).txs [1]).shares = [first] ∧
      first.ns = .ok Namespace.payForBlob := by
  have needed : compactSharesNeeded (Compact.stream
      [Format.indexWrapper.encode (IndexWrapper.misplaced commitment)]).length = 1 := by
    rw [IndexWrapper.length_stream_misplaced]
    rfl
  obtain ⟨first, alone, stands⟩ := Compact.exists_share_sequenceOf Namespace.payForBlob needed
  refine ⟨first, ?_, stands⟩
  rw [shares, ofStreams, ordinaryTxs_misplaced, wrappedTxs_misplaced, alone]
  rfl

/-- The blob starts behind the share of the index wrapper. -/
theorem BlockData.square_misplaced : ∃ first,
    (BlockData.misplaced commitment).square =
      .ok ([first] ++ Blob.twoShares.shares ++ Share.tailPadding 1) ∧
    first.ns = .ok Namespace.payForBlob := by
  obtain ⟨first, shares, stands⟩ := TxShares.shares_misplaced commitment
  have sorted : (TxShares.ofStreams (BlockData.misplaced commitment).txs [1]).sortedIndexes = [1] :=
    List.mergeSort_singleton 1
  have count : ([first] ++ Blob.twoShares.shares).length = 3 := by
    rw [List.length_append, Blob.length_shares_twoShares]
    rfl
  refine ⟨first, ?_, stands⟩
  have countable : 2 * 2 < UInt64.size := by decide
  apply Square.split_eq_ok.mpr
  refine ⟨countable, _, Blob.twoShares.shares, TxShares.ofTxs_misplaced commitment, rfl, ?_, ?_, ?_⟩
  · rw [← TxShares.length_shares, shares, sorted]
    have range : 1 ≤ 1 ∧ 1 ≤ 2 * 2 := by decide
    apply Square.blobShares_cons_eq_ok.mpr
    refine ⟨range, Blob.isWritable_twoShares, [], Square.blobShares_nil_eq_ok.mpr rfl, ?_⟩
    rw [Square.paddingBefore_eq, List.append_nil]
    rfl
  · rw [shares, count]
    change 3 ≤ 2 * 2
    decide
  · rw [shares, count]
    rfl

end Misplaced

/-- The rows of the square of the block are clear, since the second one starts in the blob. -/
theorem clear_misplaced {first : Share} {header : AvailabilityHeader} {trees : RowTrees}
    (stands : first.ns = .ok Namespace.payForBlob)
    (ordered : Ordered ([first] ++ Blob.twoShares.shares ++ Share.tailPadding 1))
    (built : AvailabilityHeader.ofShares
      ([first] ++ Blob.twoShares.shares ++ Share.tailPadding 1) = .ok (header, trees))
    (width : header.squareSize = 2) : trees.Clear header := by
  obtain ⟨second, third, shares⟩ := List.length_eq_two.mp Blob.length_shares_twoShares
  have inBlob : third ∈ Blob.twoShares.shares := by simp [shares]
  have thirdStands : third.ns = .ok Namespace.lowestUser := Blob.ns_of_mem_shares inBlob
  have top : Ordered.spaceAt ([first] ++ Blob.twoShares.shares ++ Share.tailPadding 1) 0 =
      Namespace.payForBlob := Share.space_of_ns stands
  have bottom : Ordered.spaceAt ([first] ++ Blob.twoShares.shares ++ Share.tailPadding 1) 2 =
      Namespace.lowestUser := by
    rw [shares]
    exact Share.space_of_ns thirdStands
  apply ordered.clear_of_two_rows built width
  · rw [top, bottom]
    decide
  · rw [bottom]
    decide

/-- The blob is paired with the share index of the payment. -/
theorem placedBlobs_misplaced (commitment : Digest) :
    Process.placedBlobs [WrappedPayment.misplaced commitment] [Blob.twoShares] =
      [(1, Blob.twoShares)] :=
  congrArg (List.zip · [Blob.twoShares]) (List.mergeSort_singleton 1)

/-- The payment of the block describes the blob. -/
theorem described_misplaced {commitment : Digest} {threshold : Nat}
    (paid : blobCommitment .twoShares threshold = .ok commitment) :
    Process.Described [WrappedPayment.misplaced commitment] [Blob.twoShares] threshold := by
  have size : Blob.twoShares.size = (500 : UInt32).toNat := List.length_replicate
  have only : ∀ payment ∈ [WrappedPayment.misplaced commitment],
      payment = WrappedPayment.misplaced commitment := fun _ => List.mem_singleton.mp
  constructor
  case valid =>
    intro payment member
    rw [only payment member]
    rfl
  case signed =>
    intro payment member
    rw [only payment member]
    exact WrappedPayment.checkSigners_eq_ok.mpr rfl
  case counted =>
    intro payment member
    rw [only payment member]
    rfl
  case describes =>
    intro payment member position shareIndex own
    rw [only payment member] at own ⊢
    have inside : position < 1 := (List.getElem?_eq_some_iff.mp own).1
    have first : position = 0 := by omega
    rw [first] at own ⊢
    have same : 1 = shareIndex := Option.some.inj own
    rw [← same, placedBlobs_misplaced]
    exact ⟨DeclaredBlob.twoShares commitment, Blob.twoShares, rfl, List.mem_singleton_self _,
      rfl, size, rfl, paid⟩

/-- The block has a verified header, and the rows of its square are clear. -/
theorem exists_verified_misplaced (commitment : Digest) : ∃ block shares header trees,
    block.data = BlockData.misplaced commitment ∧
    Process.HeaderVerified block AppVersion.v3.consts [WrappedPayment.misplaced commitment]
      shares header trees ∧
    trees.Clear header := by
  obtain ⟨first, made, stands⟩ := BlockData.square_misplaced commitment
  have ordered : Ordered ([first] ++ Blob.twoShares.shares ++ Share.tailPadding 1) := by
    apply Square.ordered_of_split made
    · intro blob member
      rw [List.mem_singleton.mp member]
      exact (Blob.validate_eq_ok.mp Blob.validate_twoShares).1
    · exact List.pairwise_singleton _ _
  have full : ([first] ++ Blob.twoShares.shares ++ Share.tailPadding 1).length = 2 * 2 :=
    Square.length_of_split made
  obtain ⟨header, trees, built⟩ := ordered.exists_ofShares (by decide) (by decide) full
  have width : header.squareSize = 2 := AvailabilityHeader.squareSize_of_ofShares built full
  have allowed : AppVersion.v3.consts.isValidSquareSize 2 = true := by decide
  have verified : Process.HeaderVerified
      ⟨⟨0, .replicate 20 0, header.hash⟩, BlockData.misplaced commitment⟩ AppVersion.v3.consts
      [WrappedPayment.misplaced commitment]
      ([first] ++ Blob.twoShares.shares ++ Share.tailPadding 1) header trees :=
    ⟨allowed, BlockData.decode_misplaced commitment, made, built, rfl⟩
  exact ⟨_, _, header, trees, rfl, verified, clear_misplaced stands ordered built width⟩

/-- A block of width two is accepted whose blob of two shares starts at the second share of the
square, which is no multiple of its alignment. -/
theorem starts_of_misplaced : ∃ block wrapped shares header trees,
    processProposal block AppVersion.v3.consts = .accepted ∧
    Process.HeaderVerified block AppVersion.v3.consts wrapped shares header trees ∧
    Process.Described wrapped block.data.blobs AppVersion.v3.consts.subtreeRootThreshold ∧
    (1, Blob.twoShares) ∈ Process.placedBlobs wrapped block.data.blobs ∧
    ¬ blobAlignment Blob.twoShares.shareCount block.data.squareSize.toNat ∣ 1 ∧
    (∃ wrapped shares, Process.decode block.data = .ok wrapped ∧
      block.data.square = .ok shares ∧
      (Process.placedBlobs wrapped block.data.blobs).map Prod.snd = block.data.blobs ∧
      ∀ (shareIndex : UInt32) (blob : Blob),
        (shareIndex, blob) ∈ Process.placedBlobs wrapped block.data.blobs →
          blob.shares <+: shares.drop shareIndex.toNat ∧
          Process.DeclaredAligned wrapped AppVersion.v3.consts.subtreeRootThreshold shareIndex) ∧
    ((processProposal block AppVersion.v3.consts = .accepted ↔
        Process.SubtreesAligned wrapped block.data.blobs
          AppVersion.v3.consts.subtreeRootThreshold) ∨
      Sha256.Collision block.data.rowMessages) := by
  obtain ⟨commitment, paid⟩ := exists_blobCommitment (List.cons_ne_nil _ _)
    Blob.isWritable_twoShares AppVersion.v3.consts.subtreeRootThreshold
  obtain ⟨block, shares, header, trees, data, verified, clear⟩ :=
    exists_verified_misplaced commitment
  have blobs : block.data.blobs = [Blob.twoShares] := congrArg BlockData.blobs data
  have described : Process.Described [WrappedPayment.misplaced commitment] block.data.blobs
      AppVersion.v3.consts.subtreeRootThreshold := by
    rw [blobs]
    exact described_misplaced paid
  have placed : (1, Blob.twoShares) ∈
      Process.placedBlobs [WrappedPayment.misplaced commitment] block.data.blobs := by
    rw [blobs, placedBlobs_misplaced]
    exact List.mem_singleton_self _
  have count : Blob.twoShares.shareCount = 2 := by
    rw [← Blob.length_shares (List.cons_ne_nil _ _), Blob.length_shares_twoShares]
  have accepted : processProposal block AppVersion.v3.consts = .accepted := by
    apply (verified.accepted_iff_dvd clear described).mpr
    intro shareIndex blob member
    rw [blobs, placedBlobs_misplaced] at member
    have own : blob = Blob.twoShares := congrArg Prod.snd (List.mem_singleton.mp member)
    rw [own, count, subtreeWidth_of_le (by decide)]
    exact Nat.one_dvd _
  have misaligned : ¬ blobAlignment Blob.twoShares.shareCount block.data.squareSize.toNat ∣ 1 := by
    rw [count, data]
    change ¬ blobAlignment 2 2 ∣ 1
    decide
  have known := starts_of_processProposal block AppVersion.v3.consts
  exact ⟨block, _, _, header, trees, accepted, verified, described, placed, misaligned,
    known.1 accepted, known.2 _ _ _ _ verified described⟩

end DataSquare
