import DataSquare.Proofs.Proposal.Accepted
import DataSquare.Proofs.Square.Split

/-!
# The payments of a block

The index wrappers of a block hold its payments, in the order in which they stand among the other
transactions. Neither what a payment declares nor whether it is accepted depends on where its
wrapper stands. The share indexes of all payments in order are those that the square is made
with, so the blob that is checked at a share index is the one that stands there.
-/
namespace DataSquare

namespace WrappedPayment

/-- A payment apart from the position of its wrapper. -/
def content (wrapped : WrappedPayment) : WrappedPayment := { wrapped with index := 0 }

/-- An index wrapper holds one payment wherever it stands. -/
theorem ofWrapper_zero_eq_ok {index : Nat} {raw : Bytes} {wrapped : WrappedPayment}
    (found : ofWrapper index raw = .ok wrapped) : ofWrapper 0 raw = .ok wrapped.content := by
  obtain ⟨wrapper, tx, payment, decoded, inner, pays, rfl⟩ := ofWrapper_eq_ok.mp found
  exact ofWrapper_eq_ok.mpr ⟨wrapper, tx, payment, decoded, inner, pays, rfl⟩

/-- An index wrapper that holds a payment at one position holds one at every position. -/
theorem exists_ofWrapper {index : Nat} {raw : Bytes} {wrapped : WrappedPayment}
    (found : ofWrapper index raw = .ok wrapped) (other : Nat) :
    ofWrapper other raw = .ok { wrapped with index := other } := by
  obtain ⟨wrapper, tx, payment, decoded, inner, pays, rfl⟩ := ofWrapper_eq_ok.mp found
  exact ofWrapper_eq_ok.mpr ⟨wrapper, tx, payment, decoded, inner, pays, rfl⟩

/-- The account that pays signs alone. -/
theorem checkSigners_eq_ok {wrapped : WrappedPayment} :
    wrapped.checkSigners = .ok () ↔ wrapped.signers = [wrapped.payment.signer] := by
  unfold checkSigners
  split
  · rename_i only alone
    rw [alone]
    by_cases same : only = wrapped.payment.signer <;> simp [same]
  · rename_i several
    simp only [reduceCtorEq, false_iff]
    exact several _

end WrappedPayment

namespace Process

/-- A payment is accepted wherever its wrapper stands. -/
theorem checkPayment_content {square : Rebuilt} {wrapped : WrappedPayment} :
    checkPayment square wrapped.content = .ok () ↔ checkPayment square wrapped = .ok () := by
  simp only [checkPayment_eq_ok, checkBlob_eq_ok, WrappedPayment.checkSigners_eq_ok]
  rfl

/-- The payments that are read off the transactions of a block are those in its index wrappers. -/
theorem mapM_content_of_blockTxs {txs : List Bytes} {first : Nat}
    {found : List (Option WrappedPayment)}
    (read : (txs.zipIdx first).mapM (fun (raw, index) => WrappedPayment.ofBlockTx? index raw)
      = .ok found) :
    (TxShares.wrappedTxs txs).mapM (WrappedPayment.ofWrapper 0) =
      .ok ((found.filterMap id).map WrappedPayment.content) := by
  induction txs generalizing first found with
  | nil =>
    obtain rfl := List.forall₂_nil_left_iff.mp (mapM_eq_ok.mp read)
    rfl
  | cons raw txs ih =>
    rw [List.zipIdx_cons] at read
    obtain ⟨own, rest, head, tail, rfl⟩ := List.forall₂_cons_left_iff.mp (mapM_eq_ok.mp read)
    have later := ih (mapM_eq_ok.mpr tail)
    rcases WrappedPayment.ofBlockTx?_eq_ok.mp head with ⟨marked, payment, wrapped, rfl⟩ |
      ⟨plain, _, _, rfl⟩
    · rw [TxShares.wrappedTxs, List.filter_cons_of_pos marked]
      exact mapM_eq_ok.mpr (List.Forall₂.cons (WrappedPayment.ofWrapper_zero_eq_ok wrapped)
        (mapM_eq_ok.mp later))
    · rw [TxShares.wrappedTxs, List.filter_cons_of_neg (by rw [plain]; exact Bool.false_ne_true)]
      exact later

/-- The transactions of a block are read when its index wrappers hold payments and the others
neither are marked nor pay. -/
theorem exists_blockTxs {txs : List Bytes}
    (wrapped : ∀ raw ∈ TxShares.wrappedTxs txs, ∃ payment,
      WrappedPayment.ofWrapper 0 raw = .ok payment)
    (ordinary : ∀ raw ∈ TxShares.ordinaryTxs txs,
      BlobTx.isMarked raw = false ∧ Tx.rawPaysForBlobs raw = false) :
    ∃ found, txs.zipIdx.mapM (fun (raw, index) => WrappedPayment.ofBlockTx? index raw)
      = .ok found := by
  apply exists_mapM_eq_ok
  rintro ⟨raw, index⟩ entry
  have member : raw ∈ txs := List.fst_mem_of_mem_zipIdx entry
  by_cases marked : IndexWrapper.isMarked raw = true
  · obtain ⟨payment, found⟩ := wrapped raw (List.mem_filter.mpr ⟨member, marked⟩)
    exact ⟨_, WrappedPayment.ofBlockTx?_eq_ok.mpr
      (.inl ⟨marked, _, WrappedPayment.exists_ofWrapper found index, rfl⟩)⟩
  · rw [Bool.not_eq_true] at marked
    obtain ⟨blobTx, pays⟩ := ordinary raw (List.mem_filter.mpr ⟨member, by rw [marked]; rfl⟩)
    exact ⟨_, WrappedPayment.ofBlockTx?_eq_ok.mpr (.inr ⟨marked, blobTx, pays, rfl⟩)⟩

/-- The transactions of a block that are not index wrappers neither are marked nor pay. -/
theorem ordinary_of_blockTxs {txs : List Bytes} {found : List (Option WrappedPayment)}
    (read : txs.zipIdx.mapM (fun (raw, index) => WrappedPayment.ofBlockTx? index raw) = .ok found)
    {raw : Bytes} (member : raw ∈ TxShares.ordinaryTxs txs) :
    BlobTx.isMarked raw = false ∧ Tx.rawPaysForBlobs raw = false := by
  obtain ⟨inside, plain⟩ := List.mem_filter.mp member
  obtain ⟨index, bound, rfl⟩ := List.mem_iff_getElem.mp inside
  obtain ⟨own, _, head⟩ :=
    (mapM_zipIdx_eq_ok.mp read).2 index _ (List.getElem?_eq_getElem bound)
  rcases WrappedPayment.ofBlockTx?_eq_ok.mp head with ⟨marked, _⟩ | ⟨_, blobTx, pays, _⟩
  · rw [marked] at plain
    contradiction
  · exact ⟨blobTx, pays⟩

/-- The share indexes of all payments are those that the transactions of the block declare. -/
theorem declaredIndexes_of_blockTxs {txs : List Bytes} {found : List (Option WrappedPayment)}
    (read : txs.zipIdx.mapM (fun (raw, index) => WrappedPayment.ofBlockTx? index raw) = .ok found) :
    TxShares.declaredIndexes txs =
      .ok ((found.filterMap id).flatMap WrappedPayment.shareIndexes) := by
  have contents := mapM_eq_ok.mp (mapM_content_of_blockTxs read)
  have indexes : ∀ {raws : List Bytes} {payments : List WrappedPayment},
      List.Forall₂ (fun raw payment => WrappedPayment.ofWrapper 0 raw = .ok payment)
        raws payments →
      (raws.mapM IndexWrapper.ofBytes).map (fun wrappers =>
        wrappers.flatMap IndexWrapper.shareIndexes) =
          .ok (payments.flatMap WrappedPayment.shareIndexes) := by
    intro raws payments each
    induction each with
    | nil => rfl
    | cons head _ ih =>
      obtain ⟨wrapper, _, _, decoded, _, _, rfl⟩ := WrappedPayment.ofWrapper_eq_ok.mp head
      obtain ⟨wrappers, listed, same⟩ := map_eq_ok.mp ih
      exact map_eq_ok.mpr ⟨wrapper :: wrappers,
        mapM_eq_ok.mpr (List.Forall₂.cons decoded (mapM_eq_ok.mp listed)),
        by rw [List.flatMap_cons, same, List.flatMap_cons]⟩
  have whole := indexes contents
  rw [List.flatMap_map] at whole
  exact whole

end Process

end DataSquare
