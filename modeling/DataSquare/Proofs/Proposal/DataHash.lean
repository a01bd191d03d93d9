import DataSquare.Proofs.Proposal.SingleBlob
import DataSquare.Proofs.Square.Binding

/-!
# What the hash of a block commits to

Two accepted blocks with one hash have the same square, and with it the same width, blobs,
ordinary transactions and index wrappers. The square holds ordinary transactions apart from
index wrappers, so how the two kinds stand among each other is the only thing that the hash leaves
open, and every way of mixing them is accepted.
-/
namespace DataSquare

/-- What is hashed for the rows of the square of a block. -/
def BlockData.rowMessages (data : BlockData) : List Bytes :=
  match data.square with
  | .error _ => []
  | .ok shares => Square.rowMessages shares

/-- What is hashed for the hash of a block, the trees of columns aside. -/
def BlockData.headerMessages (data : BlockData) : List Bytes :=
  match data.square with
  | .error _ => []
  | .ok shares => Square.headerMessages shares

/-- What is hashed for a block that makes a square. -/
theorem BlockData.headerMessages_of_square {data : BlockData} {shares : List Share}
    (made : data.square = .ok shares) : data.headerMessages = Square.headerMessages shares := by
  rw [headerMessages, made]

/-- What is hashed for the rows of a block that makes a square. -/
theorem BlockData.rowMessages_of_square {data : BlockData} {shares : List Share}
    (made : data.square = .ok shares) : data.rowMessages = Square.rowMessages shares := by
  rw [rowMessages, made]

/-- Lists whose entries of two kinds are the same are equal when the kinds follow each other in the
same way. -/
theorem eq_of_filter_eq {α : Type} {kind : α → Bool} {left right : List α}
    (own : left.filter kind = right.filter kind)
    (rest : (left.filter fun item => !kind item) = right.filter fun item => !kind item)
    (kinds : left.map kind = right.map kind) : left = right := by
  induction left generalizing right with
  | nil => exact (List.map_eq_nil_iff.mp kinds.symm).symm
  | cons first left ih =>
    cases right with
    | nil => contradiction
    | cons second right =>
      obtain ⟨heads, tails⟩ := List.cons.inj kinds
      cases flag : kind first with
      | true =>
        have other : kind second = true := heads ▸ flag
        rw [List.filter_cons_of_pos flag, List.filter_cons_of_pos other] at own
        rw [List.filter_cons_of_neg (by simp [flag]), List.filter_cons_of_neg (by simp [other])]
          at rest
        obtain ⟨same, later⟩ := List.cons.inj own
        rw [same, ih later rest tails]
      | false =>
        have other : kind second = false := heads ▸ flag
        rw [List.filter_cons_of_neg (by simp [flag]), List.filter_cons_of_neg (by simp [other])]
          at own
        rw [List.filter_cons_of_pos (by simp [flag]), List.filter_cons_of_pos (by simp [other])]
          at rest
        obtain ⟨same, later⟩ := List.cons.inj rest
        rw [same, ih own later tails]

/-- Contents of a block with the same transactions of each kind, whatever the order of the kinds. -/
structure BlockData.SameParts (data other : BlockData) : Prop where
  /-- The squares have one width. -/
  squareSize : data.squareSize = other.squareSize
  /-- The blobs are the same. -/
  blobs : data.blobs = other.blobs
  /-- The ordinary transactions are the same in order. -/
  ordinaryTxs : TxShares.ordinaryTxs data.txs = TxShares.ordinaryTxs other.txs
  /-- The index wrappers are the same in order. -/
  wrappedTxs : TxShares.wrappedTxs data.txs = TxShares.wrappedTxs other.txs

namespace BlockData.SameParts

variable {data other : BlockData}

/-- Contents with the same parts make the same square. -/
theorem square_eq (same : data.SameParts other) : data.square = other.square := by
  rw [BlockData.square, BlockData.square, Square.split, Square.split, TxShares.ofTxs,
    TxShares.ofTxs, TxShares.declaredIndexes, TxShares.declaredIndexes, same.squareSize,
    same.blobs, same.ordinaryTxs, same.wrappedTxs]

/-- Contents with the same parts are equal exactly when index wrappers stand at the same positions
among the transactions. -/
theorem eq_iff (same : data.SameParts other) : data = other ↔
    data.txs.map IndexWrapper.isMarked = other.txs.map IndexWrapper.isMarked := by
  constructor
  · rintro rfl
    rfl
  · intro kinds
    have txs := eq_of_filter_eq same.wrappedTxs same.ordinaryTxs kinds
    have blobs := same.blobs
    have squareSize := same.squareSize
    cases data
    cases other
    simp_all

/-- Contents with the same parts hold the same payments. -/
theorem decode_eq_ok (same : data.SameParts other) {wrapped : List WrappedPayment}
    (decoded : Process.decode data = .ok wrapped) : ∃ others,
      Process.decode other = .ok others ∧
        others.map WrappedPayment.content = wrapped.map WrappedPayment.content := by
  obtain ⟨found, read, rfl, valid, sorted, paid⟩ := Process.decode_eq_ok.mp decoded
  have payments := Process.mapM_content_of_blockTxs read
  have wrapped : ∀ raw ∈ TxShares.wrappedTxs other.txs, ∃ payment,
      WrappedPayment.ofWrapper 0 raw = .ok payment := by
    intro raw member
    rw [← same.wrappedTxs] at member
    obtain ⟨index, inside, rfl⟩ := List.mem_iff_getElem.mp member
    have each := List.forall₂_iff_get.mp (mapM_eq_ok.mp payments)
    exact ⟨_, each.2 index inside (each.1 ▸ inside)⟩
  obtain ⟨others, otherRead⟩ := Process.exists_blockTxs wrapped
    fun raw member => Process.ordinary_of_blockTxs read (same.ordinaryTxs ▸ member)
  have otherPayments := Process.mapM_content_of_blockTxs otherRead
  rw [← same.wrappedTxs, payments] at otherPayments
  have contents := (Except.ok.inj otherPayments).symm
  refine ⟨_, Process.decode_eq_ok.mpr ⟨others, otherRead, rfl, same.blobs ▸ valid,
    same.blobs ▸ sorted, ?_⟩, contents⟩
  have indexes := congrArg (List.flatMap WrappedPayment.shareIndexes) contents
  rw [List.flatMap_map, List.flatMap_map] at indexes
  rw [← same.blobs, ← paid]
  exact congrArg List.length indexes

end BlockData.SameParts

/-- A block stays accepted when ordinary transactions and index wrappers are mixed in another
way. -/
theorem processProposal_of_sameParts {block : Block} {consts : AppConsts} {other : BlockData}
    (accepted : processProposal block consts = .accepted) (same : block.data.SameParts other) :
    processProposal ⟨block.header, other⟩ consts = .accepted := by
  obtain ⟨wrapped, shares, header, trees, width, decoded, made, built, hash, paid⟩ :=
    Process.verify_eq_ok.mp (processProposal_eq_accepted.mp accepted)
  obtain ⟨others, otherDecoded, contents⟩ := same.decode_eq_ok decoded
  have indexes : others.flatMap WrappedPayment.shareIndexes =
      wrapped.flatMap WrappedPayment.shareIndexes := by
    have lists := congrArg (List.flatMap WrappedPayment.shareIndexes) contents
    rw [List.flatMap_map, List.flatMap_map] at lists
    exact lists
  refine processProposal_eq_accepted.mpr (Process.verify_eq_ok.mpr ⟨others, shares, header, trees,
    same.squareSize ▸ width, otherDecoded, same.square_eq ▸ made, built, hash, ?_⟩)
  obtain ⟨each, _⟩ := Process.checkCommitments_eq_ok.mp paid
  rw [Process.checkCommitments_eq_ok]
  refine ⟨fun payment member => ?_, ?_⟩
  · have listed : payment.content ∈ wrapped.map WrappedPayment.content := by
      rw [← contents]
      exact List.mem_map_of_mem member
    obtain ⟨own, inside, equal⟩ := List.mem_map.mp listed
    rw [← Process.checkPayment_content, ← equal, Process.checkPayment_content, ← same.blobs,
      Process.placedBlobs, indexes]
    exact each own inside
  · exact (Process.decode_eq_ok.mp otherDecoded).choose_spec.2.2.2.2

/-- Accepted blocks with one hash have the same parts, and then are equal exactly when index
wrappers stand at the same positions among the transactions, unless two messages that are hashed
for them have one digest. -/
theorem sameParts_of_dataHash_eq {block other : Block} {consts : AppConsts}
    (accepted : processProposal block consts = .accepted)
    (otherAccepted : processProposal other consts = .accepted)
    (same : block.header.dataHash = other.header.dataHash) :
    (block.data.SameParts other.data ∧ (block.data = other.data ↔
      block.data.txs.map IndexWrapper.isMarked = other.data.txs.map IndexWrapper.isMarked)) ∨
    Sha256.Collision (block.data.headerMessages ++ other.data.headerMessages) := by
  obtain ⟨_, shares, header, trees, _, decoded, made, built, hash, _⟩ :=
    Process.verify_eq_ok.mp (processProposal_eq_accepted.mp accepted)
  obtain ⟨_, others, otherHeader, otherTrees, _, otherDecoded, otherMade, otherBuilt, otherHash,
    _⟩ := Process.verify_eq_ok.mp (processProposal_eq_accepted.mp otherAccepted)
  obtain ⟨_, _, _, valid, _, _⟩ := Process.decode_eq_ok.mp decoded
  obtain ⟨_, _, _, otherValid, _, _⟩ := Process.decode_eq_ok.mp otherDecoded
  rw [BlockData.headerMessages_of_square made, BlockData.headerMessages_of_square otherMade]
  rcases Sha256.collisionFree_or_collision
    (Square.headerMessages shares ++ Square.headerMessages others) with free | found
  · left
    have squares := Square.shares_eq_of_hash_eq built otherBuilt free
      (hash.trans (same.trans otherHash.symm))
    subst squares
    have width : block.data.squareSize = other.data.squareSize :=
      UInt64.toNat_inj.mp (Nat.mul_self_inj.mp
        ((Square.length_of_split made).symm.trans (Square.length_of_split otherMade)))
    rw [BlockData.square] at made otherMade
    rw [← width] at otherMade
    obtain ⟨ordinary, wrapped, blobs⟩ := Square.parts_eq_of_split_eq made otherMade
      (fun blob member => (Blob.validate_eq_ok.mp (valid blob member)).1)
      (fun blob member => (Blob.validate_eq_ok.mp (otherValid blob member)).1)
    have parts : block.data.SameParts other.data := ⟨width, blobs, ordinary, wrapped⟩
    exact ⟨parts, parts.eq_iff⟩
  · exact .inr found

/-- Two accepted blocks have one hash, and hold the same ordinary transaction and the same index
wrapper in another order. -/
theorem sameParts_of_swapped_txs : ∃ block other : Block,
    processProposal block AppVersion.v3.consts = .accepted ∧
      processProposal other AppVersion.v3.consts = .accepted ∧
      block.header.dataHash = other.header.dataHash ∧ block.data ≠ other.data ∧
      ((block.data.SameParts other.data ∧ (block.data = other.data ↔
        block.data.txs.map IndexWrapper.isMarked = other.data.txs.map IndexWrapper.isMarked)) ∨
      Sha256.Collision (block.data.headerMessages ++ other.data.headerMessages)) := by
  obtain ⟨commitment, header, _, accepted⟩ := exists_accepted_oneByte 1 rfl
  have marked := (IndexWrapper.ofBytes_of_toBytes (IndexWrapper.toBytes_forBlob (.replicate 20 0)
    ⟨Namespace.lowestUser, 1, commitment, 0⟩)).1
  rw [BlockData.forBlob] at accepted
  generalize Format.indexWrapper.encode (IndexWrapper.forBlob (.replicate 20 0)
    ⟨Namespace.lowestUser, 1, commitment, 0⟩) = raw at accepted marked
  have plain : IndexWrapper.isMarked [1] = false := by decide
  have swapped : (⟨[[1], raw], [.oneByte], 2⟩ : BlockData).SameParts
      ⟨[raw, [1]], [.oneByte], 2⟩ :=
    ⟨rfl, rfl, by simp [TxShares.ordinaryTxs, marked, plain],
      by simp [TxShares.wrappedTxs, marked, plain]⟩
  have otherAccepted := processProposal_of_sameParts accepted swapped
  refine ⟨_, _, accepted, otherAccepted, rfl, fun equal => ?_,
    sameParts_of_dataHash_eq accepted otherAccepted rfl⟩
  have kinds := swapped.eq_iff.mp equal
  simp [marked, plain] at kinds

end DataSquare
