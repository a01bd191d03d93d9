import DataSquare.Proofs.Proposal.Payments

/-!
# The blob at a share index

Blobs are paired with the share indexes of all payments in order. Since later blobs start after
earlier ones, no share index occurs twice, and the blob at a share index is the one whose rank
among the blobs is the number of share indexes below it. It stands in the square at that index.
-/
namespace DataSquare

section Ranks

variable {key : UInt32} {keys : List UInt32}

/-- As many keys are below a key as stand before it, when keys go up. -/
theorem countP_lt_eq_rank (increasing : keys.Pairwise (· < ·)) {rank : Nat}
    (found : keys[rank]? = some key) : (keys.countP fun other => other < key) = rank := by
  obtain ⟨inside, rfl⟩ := List.getElem?_eq_some_iff.mp found
  have order := List.pairwise_iff_getElem.mp increasing
  have before : (keys.take rank).countP (fun other => other < keys[rank]) = rank := by
    rw [List.countP_eq_length.mpr, List.length_take, Nat.min_eq_left (by omega)]
    intro other member
    obtain ⟨position, bound, rfl⟩ := List.mem_iff_getElem.mp member
    rw [List.length_take] at bound
    rw [List.getElem_take, decide_eq_true_iff]
    exact order position rank _ _ (by omega)
  have behind : (keys.drop rank).countP (fun other => other < keys[rank]) = 0 := by
    rw [List.countP_eq_zero]
    intro other member
    obtain ⟨position, bound, rfl⟩ := List.mem_iff_getElem.mp member
    rw [List.length_drop] at bound
    rw [List.getElem_drop, decide_eq_true_iff]
    rcases Nat.eq_zero_or_pos position with same | later
    · subst same
      exact UInt32.lt_irrefl _
    · exact UInt32.lt_asymm (order rank (rank + position) _ (by omega) (by omega))
  have whole : (keys.take rank ++ keys.drop rank).countP (fun other => other < keys[rank]) =
      rank := by
    rw [List.countP_append, before, behind, Nat.add_zero]
  rwa [List.take_append_drop] at whole

/-- The value of a key is found by it, when no key occurs twice. -/
theorem blobAt_eq_some {entries : List (UInt32 × Blob)} {blob : Blob}
    (distinct : (entries.map Prod.fst).Nodup) (member : (key, blob) ∈ entries) :
    Process.blobAt entries key = some blob := by
  have present : (entries.reverse.find? fun entry => entry.1 = key).isSome := by
    rw [List.find?_isSome]
    exact ⟨_, List.mem_reverse.mpr member, by simp⟩
  obtain ⟨⟨other, value⟩, found⟩ := Option.isSome_iff_exists.mp present
  have same : other = key := by simpa using List.find?_some found
  have listed := List.mem_reverse.mp (List.mem_of_find?_eq_some found)
  have equal := List.inj_on_of_nodup_map distinct listed member same
  rw [Process.blobAt, found, equal]
  rfl

end Ranks

namespace Process

variable {data : BlockData} {wrapped : List WrappedPayment} {shares : List Share}

/-- The share indexes of all payments in order. -/
def sortedIndexes (wrapped : List WrappedPayment) : List UInt32 :=
  (wrapped.flatMap WrappedPayment.shareIndexes).mergeSort fun left right => decide (left ≤ right)

/-- The share indexes of all payments in order are those that the square is made with. -/
theorem ofTxs_of_square (decoded : decode data = .ok wrapped) (made : data.square = .ok shares) :
    ∃ txShares, TxShares.ofTxs data.txs = .ok txShares ∧
      txShares.sortedIndexes = (sortedIndexes wrapped).map UInt32.toNat := by
  obtain ⟨found, read, rfl, _⟩ := decode_eq_ok.mp decoded
  obtain ⟨_, txShares, _, written, _⟩ := Square.split_eq_ok.mp made
  obtain ⟨_, _, shareIndexes, declared, rfl⟩ := TxShares.ofTxs_eq_ok.mp written
  refine ⟨_, written, ?_⟩
  obtain rfl := Except.ok.inj (declared.symm.trans (declaredIndexes_of_blockTxs read))
  exact (List.map_mergeSort fun left _ right _ => decide_eq_decide.mpr UInt32.le_iff_toNat_le).symm

/-- The share indexes of all payments in order go up, and there is one for each blob. -/
theorem sortedIndexes_of_square (decoded : decode data = .ok wrapped)
    (made : data.square = .ok shares) :
    (sortedIndexes wrapped).Pairwise (· < ·) ∧
      (sortedIndexes wrapped).length = data.blobs.length := by
  obtain ⟨txShares, written, same⟩ := ofTxs_of_square decoded made
  obtain ⟨_, other, placed, again, count, laid, _⟩ := Square.split_eq_ok.mp made
  obtain rfl : txShares = other := Except.ok.inj (written.symm.trans again)
  have length : (sortedIndexes wrapped).length = data.blobs.length := by
    rw [← count, ← TxShares.length_sortedIndexes, same, List.length_map]
  have increasing := Square.pairwise_index_of_blobShares laid
  rw [List.map_fst_zip (by rw [same, List.length_map, length]), same, List.pairwise_map]
    at increasing
  exact ⟨increasing.imp fun below => UInt32.lt_iff_toNat_lt.mpr below, length⟩

/-- The blob at a share index of a payment is the one of its rank, and stands there in the
square. -/
theorem exists_blobAt (decoded : decode data = .ok wrapped) (made : data.square = .ok shares)
    {shareIndex : UInt32} (member : shareIndex ∈ wrapped.flatMap WrappedPayment.shareIndexes) :
    ∃ blob, data.blobs[(wrapped.flatMap WrappedPayment.shareIndexes).countP
        fun other => other < shareIndex]? = some blob ∧
      blobAt (placedBlobs wrapped data.blobs) shareIndex = some blob ∧
      blob.IsWritable ∧ blob.shares <+: shares.drop shareIndex.toNat := by
  obtain ⟨increasing, length⟩ := sortedIndexes_of_square decoded made
  have perm : (sortedIndexes wrapped).Perm (wrapped.flatMap WrappedPayment.shareIndexes) :=
    List.mergeSort_perm _ _
  obtain ⟨rank, inside, rfl⟩ := List.mem_iff_getElem.mp (perm.mem_iff.mpr member)
  have entry := List.getElem?_eq_getElem inside
  have blobEntry := List.getElem?_eq_getElem (length ▸ inside)
  rw [← perm.countP_eq, countP_lt_eq_rank increasing entry]
  refine ⟨data.blobs[rank], blobEntry, ?_, ?_⟩
  · apply blobAt_eq_some
    · change (((sortedIndexes wrapped).zip data.blobs).map Prod.fst).Nodup
      rw [List.map_fst_zip (Nat.le_of_eq length)]
      exact increasing.imp fun below => UInt32.ne_of_lt below
    · exact List.mem_of_getElem? (List.getElem?_zip_eq_some.mpr ⟨entry, blobEntry⟩)
  · obtain ⟨txShares, written, same⟩ := ofTxs_of_square decoded made
    apply Square.prefix_drop_of_split made written
    apply List.mem_of_getElem? (i := rank)
    rw [List.getElem?_zip_eq_some, same, List.getElem?_map, entry]
    exact ⟨rfl, blobEntry⟩

end Process

end DataSquare
