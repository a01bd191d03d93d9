import DataSquare.Proofs.Namespace
import DataSquare.Proofs.Tx
import DataSquare.Proposal.Process

/-!
# Accepted blocks

A block is accepted exactly when every check passes. Each check is stated here as what it asks
for, so that what holds of accepted blocks follows without going through the checks again.
-/
namespace DataSquare

namespace WrappedPayment

/-- An index wrapper holds a payment when it wraps a transaction that is a single one. -/
theorem ofWrapper_eq_ok {index : Nat} {raw : Bytes} {wrapped : WrappedPayment} :
    ofWrapper index raw = .ok wrapped ↔ ∃ wrapper tx payment,
      IndexWrapper.ofBytes raw = .ok wrapper ∧ Tx.ofBytes wrapper.tx = .ok tx ∧
        tx.payment? = some payment ∧
        wrapped = ⟨index, tx.signers, payment, wrapper.shareIndexes⟩ := by
  unfold ofWrapper
  cases IndexWrapper.ofBytes raw with
  | error cause => simp
  | ok wrapper =>
    simp only [Except.ok.injEq, exists_and_left, exists_eq_left']
    cases Tx.ofBytes wrapper.tx with
    | error cause => simp
    | ok tx =>
      simp only [Except.ok.injEq, exists_eq_left']
      cases tx.payment? with
      | none => simp
      | some payment => simp [eq_comm]

/-- A transaction of a block is an index wrapper that holds a payment, or neither marked nor a
payment. -/
theorem ofBlockTx?_eq_ok {index : Nat} {raw : Bytes} {found : Option WrappedPayment} :
    ofBlockTx? index raw = .ok found ↔
      (IndexWrapper.isMarked raw = true ∧ ∃ wrapped, ofWrapper index raw = .ok wrapped ∧
        found = some wrapped) ∨
      (IndexWrapper.isMarked raw = false ∧ BlobTx.isMarked raw = false ∧
        Tx.rawPaysForBlobs raw = false ∧ found = none) := by
  unfold ofBlockTx?
  by_cases marked : IndexWrapper.isMarked raw = true
  · simp only [marked, if_true, true_and, Bool.true_eq_false, false_and, or_false]
    cases ofWrapper index raw with
    | error cause => simp
    | ok wrapped => simp [eq_comm]
  · simp only [marked, Bool.false_eq_true, if_false, false_and, false_or]
    by_cases pays : (BlobTx.isMarked raw || Tx.rawPaysForBlobs raw) = true
    · rw [if_pos pays]
      simp only [Bool.or_eq_true] at pays
      rcases pays with blobTx | plain
      · simp [blobTx]
      · simp [plain]
    · rw [if_neg pays]
      simp only [Bool.not_eq_true, Bool.or_eq_false_iff] at pays
      simp [pays, eq_comm]

end WrappedPayment

namespace Process

variable {data : BlockData} {wrapped : List WrappedPayment} {square : Rebuilt}

/-- Blobs are sorted when the namespaces of neighbours do not go down. -/
theorem isSorted_iff {blobs : List Blob} :
    isSorted blobs = true ↔ (blobs.map Blob.ns).Pairwise (· ≤ ·) := by
  have : IsTrans Namespace (· ≤ ·) := ⟨fun _ _ _ => Namespace.le_trans⟩
  rw [← List.isChain_iff_pairwise]
  induction blobs with
  | nil => simp [isSorted]
  | cons first rest ih =>
    cases rest with
    | nil => simp [isSorted]
    | cons second others =>
      rw [isSorted, Bool.and_eq_true, decide_eq_true_iff]
      exact (and_congr_right fun _ => ih).trans List.isChain_cons_cons.symm

/-- The contents of a block decode when each transaction does, each blob may be published, the
blobs are sorted, and there is a share index for each. -/
theorem decode_eq_ok : decode data = .ok wrapped ↔ ∃ found,
    data.txs.zipIdx.mapM (fun (raw, index) => WrappedPayment.ofBlockTx? index raw) = .ok found ∧
      wrapped = found.filterMap id ∧ (∀ blob ∈ data.blobs, blob.validate = .ok ()) ∧
      (data.blobs.map Blob.ns).Pairwise (· ≤ ·) ∧
      (wrapped.flatMap WrappedPayment.shareIndexes).length = data.blobs.length := by
  have valid : data.blobs.zipIdx.forM (fun entry =>
      entry.1.validate.mapError (RejectReason.invalidBlob entry.2)) = .ok () ↔
      ∀ blob ∈ data.blobs, blob.validate = .ok () := by
    simp only [forM_eq_ok, mapError_eq_ok]
    constructor
    · intro each blob member
      obtain ⟨index, inside, rfl⟩ := List.mem_iff_getElem.mp member
      exact each (_, index) (List.mem_zipIdx_iff_getElem?.mpr (List.getElem?_eq_getElem inside))
    · exact fun each entry member => each _ (List.fst_mem_of_mem_zipIdx member)
  unfold decode
  simp only [bind_eq_ok, valid]
  refine exists_congr fun found => and_congr_right fun _ => ?_
  by_cases sorted : isSorted data.blobs = true
  · have ordered := isSorted_iff.mp sorted
    simp only [sorted, ordered, Bool.not_true, Bool.false_eq_true, if_false, guard_eq_ok,
      Decidable.not_not, Except.ok.injEq, exists_const, true_and, ne_eq]
    constructor
    · rintro ⟨each, paid, rfl⟩
      exact ⟨rfl, each, paid⟩
    · rintro ⟨rfl, each, paid⟩
      exact ⟨each, paid, rfl⟩
  · have unordered : ¬ (data.blobs.map Blob.ns).Pairwise (· ≤ ·) :=
      fun ordered => sorted (isSorted_iff.mpr ordered)
    simp [sorted, unordered]

/-- A blob is what a payment declares when it stands in the declared namespace and the square has
the declared commitment where it starts. -/
theorem checkBlob_eq_ok {payment : WrappedPayment} {shareIndex : UInt32} {position : Nat} :
    checkBlob square payment shareIndex position = .ok () ↔ ∃ declared,
      payment.declared? position = some declared ∧
        (blobAt square.placed shareIndex).map Blob.ns = some declared.ns ∧
        squareCommitment square.trees square.header shareIndex.toNat
          (sparseSharesNeeded declared.size.toNat) square.threshold = .ok declared.commitment := by
  unfold checkBlob
  cases payment.declared? position with
  | none => simp
  | some declared =>
    simp only [Option.some.injEq, exists_eq_left', guard_eq_ok, ne_eq, Decidable.not_not]
    refine and_congr_right fun _ => ?_
    cases squareCommitment square.trees square.header shareIndex.toNat
      (sparseSharesNeeded declared.size.toNat) square.threshold with
    | error cause => simp
    | ok commitment => simp

/-- A payment is accepted when it is sound on its own, the account that pays signs alone, and each
of its blobs is what it declares. -/
theorem checkPayment_eq_ok {payment : WrappedPayment} :
    checkPayment square payment = .ok () ↔ payment.payment.validate = .ok () ∧
      payment.checkSigners = .ok () ∧
      payment.shareIndexes.length = payment.payment.blobCount ∧
      ∀ (position : Nat) (shareIndex : UInt32), payment.shareIndexes[position]? = some shareIndex →
        checkBlob square payment shareIndex position = .ok () := by
  unfold checkPayment
  simp only [check_bind_eq_ok, mapError_eq_ok, guard_eq_ok, ne_eq, Decidable.not_not, forM_eq_ok]
  refine and_congr_right fun _ => and_congr_right fun _ => and_congr_right fun _ => ?_
  constructor
  · exact fun each position shareIndex found =>
      each (shareIndex, position) (List.mem_zipIdx_iff_getElem?.mpr found)
  · exact fun each entry member => each _ _ (List.mem_zipIdx_iff_getElem?.mp member)

/-- The commitments of a block are accepted when each payment is and all blobs are paid for. -/
theorem checkCommitments_eq_ok {blobs : List Blob} :
    checkCommitments square wrapped blobs = .ok () ↔
      (∀ payment ∈ wrapped, checkPayment square payment = .ok ()) ∧
        (wrapped.flatMap WrappedPayment.shareIndexes).length = blobs.length := by
  unfold checkCommitments
  simp only [check_bind_eq_ok, forM_eq_ok, guard_eq_ok, ne_eq, Decidable.not_not, and_true]

/-- A block passes all checks when it has an allowed width, its contents decode and make a square
whose header is the declared one, and its commitments are accepted. -/
theorem verify_eq_ok {block : Block} {consts : AppConsts} :
    verify block consts = .ok () ↔ ∃ wrapped shares header trees,
      consts.isValidSquareSize block.data.squareSize.toNat = true ∧
        decode block.data = .ok wrapped ∧ block.data.square = .ok shares ∧
        AvailabilityHeader.ofShares shares = .ok (header, trees) ∧
        header.hash = block.header.dataHash ∧
        checkCommitments ⟨header, trees, consts.subtreeRootThreshold,
          placedBlobs wrapped block.data.blobs⟩ wrapped block.data.blobs = .ok () := by
  unfold verify after
  simp only [bind_eq_ok, mapError_eq_ok, squareSize, checkHash, BlockData.square, Prod.exists]
  constructor
  · rintro ⟨size, width, wrapped, decoded, shares, made, header, trees, built, _, hash, paid⟩
    split at width
    · rename_i allowed
      obtain rfl := Except.ok.inj width
      exact ⟨wrapped, shares, header, trees, allowed, decoded, made, built,
        not_not.mp (guard_eq_ok.mp hash).1, paid⟩
    · contradiction
  · rintro ⟨wrapped, shares, header, trees, allowed, decoded, made, built, hash, paid⟩
    exact ⟨_, if_pos allowed, wrapped, decoded, shares, made, header, trees, built, (),
      guard_eq_ok.mpr ⟨not_not.mpr hash, rfl⟩, paid⟩

end Process

/-- A block is accepted exactly when it passes all checks. -/
theorem processProposal_eq_accepted {block : Block} {consts : AppConsts} :
    processProposal block consts = .accepted ↔ Process.verify block consts = .ok () := by
  unfold processProposal
  cases Process.verify block consts with
  | error rejection => simp
  | ok _ => simp

end DataSquare
