import DataSquare.Proofs.Consensus
import DataSquare.Proofs.Erasure.ProductCode
import DataSquare.Proofs.Proposal.Accepted
import DataSquare.Proofs.Proposal.SingleBlob
import DataSquare.Proofs.Square.Commitment
import DataSquare.Proofs.Square.Split

/-!
# Refused blocks

After every state that a validator passes there are few reasons left for which it may refuse a
block. Once the contents decode and make a square, the shares of the square are in order, so it is
extended and every row and column has its tree. Once the header is the declared one, the blobs were
counted, a payment that is sound on its own has an entry in each of its lists for each share index,
and no blob is without shares, so no list is read behind its end and no row is without a tree.
-/
namespace DataSquare

open Merkle

namespace Merkle.NamespacedHash

/-- Reading the bytes of a node gives it back. -/
theorem ofBytes_bytes (hash : NamespacedHash) : ofBytes hash.bytes = .ok hash := by
  obtain ⟨min, max, digest⟩ := hash
  have low : (min.bytes ++ max.bytes ++ digest.bytes).take 29 = min.bytes := by
    rw [List.append_assoc]
    exact List.take_left' min.length_bytes
  have rest : (min.bytes ++ max.bytes ++ digest.bytes).drop 29 = max.bytes ++ digest.bytes := by
    rw [List.append_assoc]
    exact List.drop_left' min.length_bytes
  have high : (max.bytes ++ digest.bytes).take 29 = max.bytes := List.take_left' max.length_bytes
  have tail : (min.bytes ++ max.bytes ++ digest.bytes).drop 58 = digest.bytes :=
    List.drop_left' (by simp)
  have kept : FixedBytes.fit 32 digest.bytes = digest :=
    FixedBytes.ext (FixedBytes.bytes_fit_of_length_eq digest.length_eq)
  have size := length_bytes ⟨min, max, digest⟩
  rw [ofBytes, if_pos size]
  simp only [bytes, low, rest, high, tail, kept, Namespace.ofBytes_bytes]

end Merkle.NamespacedHash

/-- Why a square that has a header may have no commitment for shares that are some. -/
def InclusionError.isPossible : InclusionError → Bool
  | .tree _ => true
  | .outOfSquare _ _ => true
  | .crossesRow _ _ => true
  | _ => false

section Commitment

variable {shares : List Share} {header : AvailabilityHeader} {trees : RowTrees}
  (built : AvailabilityHeader.ofShares shares = .ok (header, trees))
include built

/-- A subtree that starts in the square is not refused for want of its row. -/
theorem failsOnly_subtreeRootAt {start : Nat}
    (inside : start < header.squareSize * header.squareSize) (width : Nat) :
    FailsOnly (·.isPossible = true) (subtreeRootAt trees header start width) := by
  have row : start / header.squareSize < header.squareSize := Nat.div_lt_of_lt_mul inside
  obtain ⟨tree, found, _⟩ := rowTree_found built row
  refine FailsOnly.guard (fun _ => rfl) fun _ => ?_
  rw [found]
  exact FailsOnly.mapError fun _ _ => rfl

/-- Nor are consecutive subtrees that lie in the square. -/
theorem failsOnly_subtreeRootsFrom {start : Nat} {widths : List Nat}
    (positive : ∀ width ∈ widths, 0 < width)
    (inside : start + widths.sum ≤ header.squareSize * header.squareSize) :
    FailsOnly (·.isPossible = true) (subtreeRootsFrom trees header start widths) := by
  induction widths generalizing start with
  | nil => exact FailsOnly.ok []
  | cons width widths ih =>
    have first := positive width List.mem_cons_self
    rw [List.sum_cons] at inside
    have later : FailsOnly (·.isPossible = true)
        (subtreeRootsFrom trees header (start + width) widths) :=
      ih (fun other member => positive other (List.mem_cons_of_mem width member)) (by omega)
    have causes := failsOnly_subtreeRootAt built (by omega : start < _) width
    rw [subtreeRootsFrom]
    cases found : subtreeRootAt trees header start width with
    | error cause => exact FailsOnly.error (causes cause found)
    | ok root => exact later.map

/-- The commitment of some shares whose end has 64 bits is not refused because they are none, for
want of a row, or because a number needs more than 64 bits. -/
theorem failsOnly_squareCommitment {start count : Nat} (nonzero : 0 < count)
    (ends : start + count < UInt64.size) (threshold : Nat) :
    FailsOnly (·.isPossible = true) (squareCommitment trees header start count threshold) := by
  have power := isPowerOfTwo_subtreeWidth count threshold
  have positive := pos_of_isPowerOfTwo power
  have few := mul_self_le_of_ofShares built
  have words : 128 * 128 < UInt64.size := by decide
  have counted := word?_eq_some_iff.mpr ⟨few.trans_lt words, rfl⟩
  have ended := word?_eq_some_iff.mpr ⟨ends, rfl⟩
  refine FailsOnly.guard (fun nothing => by omega) fun _ => ?_
  rw [counted, ended]
  refine FailsOnly.guard (fun _ => rfl) fun fits => ?_
  rw [subtreeWidth?_of_le (by omega)]
  apply FailsOnly.map
  apply failsOnly_subtreeRootsFrom built
  · intro width member
    exact Nat.pos_of_dvd_of_pos (dvd_of_mem_mountainRange power member) positive
  · rw [sum_mountainRange count positive]
    omega

end Commitment

section Split

/-- Transactions are not refused for the number of shares of the square. -/
theorem TxShares.failsOnly_ofTxs (txs : List Bytes) :
    FailsOnly (· ≠ .overflow) (TxShares.ofTxs txs) := by
  unfold TxShares.ofTxs
  cases TxShares.declaredIndexes txs with
  | error cause => exact FailsOnly.error (by simp)
  | ok shareIndexes =>
    cases Compact.split Namespace.transaction (TxShares.ordinaryTxs txs) with
    | error cause => exact FailsOnly.error (by simp)
    | ok ordinary =>
      cases Compact.split Namespace.payForBlob (TxShares.wrappedTxs txs) with
      | error cause => exact FailsOnly.error (by simp)
      | ok wrapped => exact FailsOnly.ok _

/-- Nor are blobs. -/
theorem Square.failsOnly_blobShares (capacity cursor : Nat) (previous : Option Namespace)
    (entries : List (Nat × Blob)) :
    FailsOnly (· ≠ .overflow) (Square.blobShares capacity cursor previous entries) := by
  induction entries generalizing cursor previous with
  | nil => exact FailsOnly.ok []
  | cons entry entries ih =>
    refine FailsOnly.guard (fun _ => by simp) fun _ => FailsOnly.guard (fun _ => by simp) fun _ => ?_
    cases Sparse.splitBlob entry.2 with
    | error cause => exact FailsOnly.error (by simp)
    | ok shares => exact (ih _ _).map

/-- The contents of a block are not refused for the number of shares of the square when it has 64
bits. -/
theorem Square.failsOnly_split {squareSize : Nat}
    (countable : squareSize * squareSize < UInt64.size) (txs : List Bytes) (blobs : List Blob) :
    FailsOnly (· ≠ .overflow) (Square.split txs blobs squareSize) := by
  have causes := TxShares.failsOnly_ofTxs txs
  unfold Square.split
  rw [word?_eq_some_iff.mpr ⟨countable, rfl⟩]
  cases found : TxShares.ofTxs txs with
  | error cause => exact FailsOnly.error (causes cause found)
  | ok txShares =>
    refine FailsOnly.guard (fun _ => by simp) fun _ => ?_
    have others := Square.failsOnly_blobShares (squareSize * squareSize) txShares.length none
      (txShares.sortedIndexes.zip blobs)
    cases laid : Square.blobShares (squareSize * squareSize) txShares.length none
        (txShares.sortedIndexes.zip blobs) with
    | error cause => exact FailsOnly.error (others cause laid)
    | ok placed => exact FailsOnly.guard (fun _ => by simp) fun _ => FailsOnly.ok _

end Split

/-- Whether a block may be refused for a reason after a state is passed. -/
def ProposalState.mayRefuse : ProposalState → RejectReason → Bool
  | .received, .invalidSquareSize _ => true
  | .received, .undecodable _ _ => true
  | .received, .unwrappedBlobTx _ => true
  | .received, .invalidBlob _ _ => true
  | .received, .unsortedBlobs => true
  | .received, .blobCountMismatch _ _ => true
  | .decoded, .split cause => decide (cause ≠ .overflow)
  | .erasured, .dataRootMismatch _ _ => true
  | .headerVerified, .invalidPayment _ _ => true
  | .headerVerified, .multipleSigners _ _ => true
  | .headerVerified, .signerMismatch _ => true
  | .headerVerified, .shareIndexCountMismatch _ _ _ => true
  | .headerVerified, .namespaceMismatch _ => true
  | .headerVerified, .commitmentNotFound _ cause => cause.isPossible
  | .headerVerified, .commitmentMismatch _ => true
  | _, _ => false

/-- What is never the reason of a refusal. -/
theorem ProposalState.possible_of_mayRefuse {state : ProposalState} {reason : RejectReason}
    (possible : state.mayRefuse reason = true) :
    state ≠ .split ∧ (∀ cause, reason ≠ .erasure cause) ∧
      (∀ index position, reason ≠ .undeclaredBlob index position) ∧
      (state = .headerVerified → ∀ paid blobs, reason ≠ .blobCountMismatch paid blobs) ∧
      (∀ shareIndex, reason ≠ .commitmentNotFound shareIndex .empty) ∧
      (∀ shareIndex row, reason ≠ .commitmentNotFound shareIndex (.rowNotCached row)) ∧
      reason ≠ .split .overflow ∧
      ∀ shareIndex, reason ≠ .commitmentNotFound shareIndex .overflow := by
  refine ⟨?_, ?_, ?_, ?_, ?_, ?_, ?_, ?_⟩
  · rintro rfl
    cases reason <;> contradiction
  · rintro cause rfl
    cases state <;> contradiction
  · rintro index position rfl
    cases state <;> contradiction
  · rintro rfl paid blobs rfl
    contradiction
  · rintro shareIndex rfl
    cases state <;> contradiction
  · rintro shareIndex row rfl
    cases state <;> contradiction
  · rintro rfl
    cases state <;> contradiction
  · rintro shareIndex rfl
    cases state <;> contradiction

namespace WrappedPayment

/-- Reading a transaction of a block is refused for the reasons of one that has arrived. -/
theorem failsOnly_ofBlockTx? (index : Nat) (raw : Bytes) :
    FailsOnly (ProposalState.received.mayRefuse · = true) (ofBlockTx? index raw) := by
  unfold ofBlockTx?
  by_cases marked : IndexWrapper.isMarked raw = true
  · rw [if_pos marked]
    cases ofWrapper index raw with
    | error cause => exact FailsOnly.error rfl
    | ok wrapped => exact FailsOnly.ok _
  · rw [if_neg marked]
    exact FailsOnly.guard (fun _ => rfl) fun _ => FailsOnly.ok _

/-- The signers of a payment are refused for the reasons of a verified header. -/
theorem failsOnly_checkSigners (payment : WrappedPayment) :
    FailsOnly (ProposalState.headerVerified.mayRefuse · = true) payment.checkSigners := by
  unfold checkSigners
  match payment.signers with
  | [] => exact FailsOnly.error rfl
  | [only] =>
    dsimp only
    by_cases same : only = payment.payment.signer
    · rw [if_pos same]
      exact FailsOnly.ok ()
    · rw [if_neg same]
      exact FailsOnly.error rfl
  | _ :: _ :: _ => exact FailsOnly.error rfl

/-- A payment that is sound on its own declares each of its blobs, with data. -/
theorem exists_declared {payment : WrappedPayment} (sound : payment.payment.validate = .ok ())
    {position : Nat} (inside : position < payment.payment.blobCount) :
    ∃ declared, payment.declared? position = some declared ∧ declared.size ≠ 0 := by
  obtain ⟨_, ⟨sizes, commitments, versions⟩, _, positive, _⟩ :=
    BlobPayment.validate_eq_ok.mp sound
  have sized : position < payment.payment.blobSizes.length := by omega
  have committed : position < payment.payment.commitments.length := by omega
  have versioned : position < payment.payment.shareVersions.length := by omega
  have named : position < payment.payment.namespaces.length := inside
  have found : payment.declared? position =
      some ⟨payment.payment.namespaces[position], payment.payment.blobSizes[position],
        payment.payment.commitments[position], payment.payment.shareVersions[position]⟩ := by
    rw [declared?, List.getElem?_eq_getElem named, List.getElem?_eq_getElem sized,
      List.getElem?_eq_getElem committed, List.getElem?_eq_getElem versioned]
    rfl
  exact ⟨_, found, positive _ (List.getElem_mem sized)⟩

end WrappedPayment

namespace Process

/-- The contents of a block are refused for the reasons of one that has arrived. -/
theorem failsOnly_decode (data : BlockData) :
    FailsOnly (ProposalState.received.mayRefuse · = true) (decode data) := by
  refine FailsOnly.bind ?_ fun wrapped _ => FailsOnly.bind ?_ fun _ _ => ?_
  · exact FailsOnly.mapM fun item _ => WrappedPayment.failsOnly_ofBlockTx? item.2 item.1
  · exact FailsOnly.forM fun _ _ => FailsOnly.mapError fun _ _ => rfl
  · exact FailsOnly.guard (fun _ => rfl) fun _ => FailsOnly.guard (fun _ => rfl) fun _ =>
      FailsOnly.ok _

section Verified

variable {shares : List Share} {square : Rebuilt}
  (built : AvailabilityHeader.ofShares shares = .ok (square.header, square.trees))
include built

/-- A blob of a sound payment is refused for the reasons of a verified header: it is declared, and
it takes shares. -/
theorem failsOnly_checkBlob {payment : WrappedPayment}
    (sound : payment.payment.validate = .ok ()) {position : Nat}
    (inside : position < payment.payment.blobCount) (shareIndex : UInt32) :
    FailsOnly (ProposalState.headerVerified.mayRefuse · = true)
      (checkBlob square payment shareIndex position) := by
  obtain ⟨declared, found, sized⟩ := WrappedPayment.exists_declared sound inside
  have positive : 0 < sparseSharesNeeded declared.size.toNat := by
    apply sparseSharesNeeded_pos
    intro zero
    exact sized (UInt32.toNat_inj.mp zero)
  have ends : shareIndex.toNat + sparseSharesNeeded declared.size.toNat < UInt64.size := by
    have words : UInt32.size + UInt32.size < UInt64.size := by decide
    have few := sparseSharesNeeded_le declared.size.toNat
    have low := shareIndex.toNat_lt_size
    have short := declared.size.toNat_lt_size
    omega
  have causes := failsOnly_squareCommitment built positive ends square.threshold
  unfold checkBlob
  rw [found]
  refine FailsOnly.guard (fun _ => rfl) fun _ => ?_
  cases computed : squareCommitment square.trees square.header shareIndex.toNat
      (sparseSharesNeeded declared.size.toNat) square.threshold with
  | error cause => exact FailsOnly.error (causes cause computed)
  | ok commitment => exact FailsOnly.guard (fun _ => rfl) fun _ => FailsOnly.ok ()

/-- A payment is refused for the reasons of a verified header. -/
theorem failsOnly_checkPayment (payment : WrappedPayment) :
    FailsOnly (ProposalState.headerVerified.mayRefuse · = true) (checkPayment square payment) := by
  refine FailsOnly.bind (FailsOnly.mapError fun _ _ => rfl) fun _ checked => ?_
  have sound : payment.payment.validate = .ok () := mapError_eq_ok.mp checked
  refine FailsOnly.bind payment.failsOnly_checkSigners fun _ _ => ?_
  refine FailsOnly.guard (fun _ => rfl) fun count => FailsOnly.forM fun entry member => ?_
  have stands := List.mem_zipIdx_iff_getElem?.mp member
  have inside := (List.getElem?_eq_some_iff.mp stands).1
  exact failsOnly_checkBlob built sound (by omega) entry.1

/-- The commitments of a block whose blobs are counted are refused for the reasons of a verified
header. -/
theorem failsOnly_checkCommitments {wrapped : List WrappedPayment} {blobs : List Blob}
    (counted : (wrapped.flatMap WrappedPayment.shareIndexes).length = blobs.length) :
    FailsOnly (ProposalState.headerVerified.mayRefuse · = true)
      (checkCommitments square wrapped blobs) := by
  refine FailsOnly.bind (FailsOnly.forM fun payment _ => failsOnly_checkPayment built payment)
    fun _ _ => ?_
  exact FailsOnly.guard (fun differ => absurd counted differ) fun _ => FailsOnly.ok ()

end Verified

/-- The width that a block declares is a power of two up to 128, for consts that allow no wider
square. -/
theorem narrow_of_squareSize {consts : AppConsts}
    (narrow : consts.maxSquareSize ≤ squareSizeUpperBound) {data : BlockData} {size : Nat}
    (sized : squareSize data consts = .ok size) :
    isPowerOfTwo size = true ∧ size ≤ squareSizeUpperBound := by
  unfold squareSize at sized
  split at sized
  · rename_i valid
    obtain ⟨power, _, bound⟩ := AppConsts.isValidSquareSize_iff.mp valid
    exact Except.ok.inj sized ▸ ⟨power, bound.trans narrow⟩
  · contradiction

/-- The square of a block that decodes is extended, has a cell in every place, and has trees over
its rows and columns, the roots of which are read back from their bytes. -/
theorem exists_trees_of_split {consts : AppConsts}
    (narrow : consts.maxSquareSize ≤ squareSizeUpperBound) {data : BlockData} {size : Nat}
    {wrapped : List WrappedPayment} {shares : List Share}
    (sized : squareSize data consts = .ok size) (decoded : decode data = .ok wrapped)
    (made : Square.split data.txs data.blobs size = .ok shares) :
    ∃ square rows columns, extendShares shares = .ok square ∧ square.width = 2 * size ∧
      (∀ row < square.width, ∀ column < square.width, ∃ cell,
        square.cell? row column = some cell) ∧
      square.cellTrees .row = .ok rows ∧ square.cellTrees .column = .ok columns ∧
      (∀ tree ∈ rows ++ columns, NamespacedHash.ofBytes tree.root.bytes = .ok tree.root) ∧
      AvailabilityHeader.ofShares shares =
        .ok (⟨rows.map NamespacedTree.root, columns.map NamespacedTree.root⟩, .ofTrees rows) := by
  obtain ⟨power, bound⟩ := narrow_of_squareSize narrow sized
  obtain ⟨_, _, _, valid, sorted, _⟩ := decode_eq_ok.mp decoded
  have ordered := Square.ordered_of_split made
    (fun blob member => (Blob.validate_eq_ok.mp (valid blob member)).1) sorted
  obtain ⟨header, trees, built⟩ := ordered.exists_ofShares (pos_of_isPowerOfTwo power)
    bound (Square.length_of_split made)
  obtain ⟨square, rows, columns, extended, rowTrees, columnTrees, rfl, rfl⟩ :=
    AvailabilityHeader.ofShares_eq_ok.mp built
  have wide : square.dataWidth = size := by
    have full := (extendShares_eq_ok.mp extended).1.2.2
    exact Nat.mul_self_inj.mp (full.symm.trans (Square.length_of_split made))
  refine ⟨square, rows, columns, extended, by rw [ExtendedSquare.width, wide],
    fun row rowInside column columnInside => ?_, rowTrees, columnTrees,
    fun tree _ => tree.root.ofBytes_bytes, built⟩
  obtain ⟨cell, stands, _⟩ := ExtendedSquare.exists_cell extended rowInside columnInside
  exact ⟨cell, stands⟩

/-- A block is refused only for a reason that there may be after the state it passed. -/
theorem failsOnly_verify {consts : AppConsts}
    (narrow : consts.maxSquareSize ≤ squareSizeUpperBound) (block : Block) :
    FailsOnly (fun rejection => rejection.state.mayRefuse rejection.reason = true)
      (verify block consts) := by
  refine FailsOnly.bind (FailsOnly.mapError ?size) fun size sized => ?_
  case size =>
    unfold squareSize
    split
    · exact FailsOnly.ok _
    · exact FailsOnly.error rfl
  refine FailsOnly.bind (FailsOnly.mapError (failsOnly_decode block.data)) fun wrapped decoded => ?_
  replace sized := mapError_eq_ok.mp sized
  replace decoded := mapError_eq_ok.mp decoded
  have bound := (narrow_of_squareSize narrow sized).2
  have words : squareSizeUpperBound * squareSizeUpperBound < UInt64.size := by decide
  have countable := (Nat.mul_le_mul bound bound).trans_lt words
  refine FailsOnly.bind (FailsOnly.mapError (FailsOnly.mapError fun cause refused =>
    decide_eq_true (Square.failsOnly_split countable _ _ cause refused))) fun shares made => ?_
  replace made := mapError_eq_ok.mp (mapError_eq_ok.mp made)
  -- From here on there are trees, so the stage that makes them has no cause to refuse, and what is
  -- counted on decoding is counted for the commitments.
  obtain ⟨_, rows, columns, _, _, _, _, _, _, built⟩ := exists_trees_of_split narrow sized decoded made
  obtain ⟨_, _, _, _, _, counted⟩ := decode_eq_ok.mp decoded
  rw [built]
  refine FailsOnly.bind (FailsOnly.ok _) fun found same => ?_
  cases same
  refine FailsOnly.bind (FailsOnly.mapError (FailsOnly.guard (fun _ => rfl) fun _ => FailsOnly.ok ()))
    fun _ _ => ?_
  exact FailsOnly.mapError (failsOnly_checkCommitments built counted)

end Process

/-- Every block is accepted or refused. It is never refused because its square is not extended or
has no header, nor for want of an entry in a payment, a share of a blob or the tree of a row, not
for the number of its blobs once the header is verified, and not because a number needs more than 64
bits. When it decodes and makes a square, that square is extended, has a cell in every place, and
has trees over all rows and columns. -/
theorem outcome_of_block {consts : AppConsts}
    (narrow : consts.maxSquareSize ≤ squareSizeUpperBound) (block : Block) :
    (processProposal block consts = .accepted ∨
      ∃ state reason, processProposal block consts = .rejected state reason ∧
        state ≠ .split ∧ (∀ cause, reason ≠ .erasure cause) ∧
        (∀ index position, reason ≠ .undeclaredBlob index position) ∧
        (state = .headerVerified → ∀ paid blobs, reason ≠ .blobCountMismatch paid blobs) ∧
        (∀ shareIndex, reason ≠ .commitmentNotFound shareIndex .empty) ∧
        (∀ shareIndex row, reason ≠ .commitmentNotFound shareIndex (.rowNotCached row)) ∧
        reason ≠ .split .overflow ∧
        ∀ shareIndex, reason ≠ .commitmentNotFound shareIndex .overflow) ∧
    ∀ size wrapped shares, Process.squareSize block.data consts = .ok size →
      Process.decode block.data = .ok wrapped →
      Square.split block.data.txs block.data.blobs size = .ok shares →
      ∃ square rows columns, extendShares shares = .ok square ∧ square.width = 2 * size ∧
        (∀ row < square.width, ∀ column < square.width, ∃ cell,
          square.cell? row column = some cell) ∧
        square.cellTrees .row = .ok rows ∧ square.cellTrees .column = .ok columns ∧
        (∀ tree ∈ rows ++ columns, NamespacedHash.ofBytes tree.root.bytes = .ok tree.root) ∧
        AvailabilityHeader.ofShares shares =
          .ok (⟨rows.map NamespacedTree.root, columns.map NamespacedTree.root⟩, .ofTrees rows) := by
  refine ⟨?_, fun _ _ _ => Process.exists_trees_of_split narrow⟩
  rw [processProposal]
  cases checked : Process.verify block consts with
  | ok _ => exact .inl rfl
  | error rejection =>
    have possible := Process.failsOnly_verify narrow block rejection checked
    exact .inr ⟨rejection.state, rejection.reason, rfl,
      ProposalState.possible_of_mayRefuse possible⟩

/-- A block of one blob of one byte, with a header and a commitment of zeros, is not refused for want
of a header of its square, which has one. -/
theorem outcome_of_oneByte :
    let block : Block := ⟨⟨1, .replicate 20 0, .replicate 32 0⟩,
      BlockData.forBlob (.replicate 20 0) ⟨Namespace.lowestUser, 1, .replicate 32 0, 0⟩ .oneByte⟩
    AppVersion.v3.consts.maxSquareSize ≤ squareSizeUpperBound ∧
      (∀ state cause,
        processProposal block AppVersion.v3.consts ≠ .rejected state (.erasure cause)) ∧
      ∃ shares header trees, block.data.square = .ok shares ∧
        AvailabilityHeader.ofShares shares = .ok (header, trees) := by
  intro block
  have narrow : AppVersion.v3.consts.maxSquareSize ≤ squareSizeUpperBound := by decide
  obtain ⟨outcome, trees⟩ := outcome_of_block narrow block
  refine ⟨narrow, fun state cause refused => ?_, ?_⟩
  · rcases outcome with accepted | ⟨other, reason, same, _, erasure, _⟩
    · rw [refused] at accepted
      contradiction
    · rw [refused] at same
      obtain ⟨_, rfl⟩ := ProcessOutcome.rejected.inj same
      exact erasure cause rfl
  · obtain ⟨first, second, made, _⟩ := BlockData.square_forBlob (.replicate 20 0)
      ⟨Namespace.lowestUser, 1, .replicate 32 0, 0⟩ .oneByte Blob.validate_oneByte (by decide)
      Blob.isWritable_oneByte
    have sized : Process.squareSize block.data AppVersion.v3.consts = .ok 2 := if_pos (by decide)
    obtain ⟨_, _, _, _, _, _, _, _, _, built⟩ :=
      trees 2 _ _ sized (BlockData.decode_forBlob Blob.validate_oneByte _) made
    exact ⟨_, _, _, made, built⟩

end DataSquare
