import DataSquare.Proofs.Proposal.SingleBlob
import DataSquare.Proofs.Share.ReadBack
import DataSquare.Proofs.Square.Split

/-!
# Reading a square back

The shares of a square in the namespaces of transactions hold the transactions, and what remains
is padding with blobs in between. Whoever reads the three parts apart has what the square was made
from.
-/
namespace DataSquare

namespace Square

/-- Whether a share stands outside the namespaces of transactions. -/
def isSparse (share : Share) : Bool :=
  share.space != Namespace.transaction && share.space != Namespace.payForBlob

/-- A share in the namespace of a transaction is not sparse. -/
theorem filter_isSparse_eq_nil {shares : List Share} {ns : Namespace}
    (stands : ∀ share ∈ shares, share.ns = .ok ns)
    (reserved : ns = Namespace.transaction ∨ ns = Namespace.payForBlob) :
    shares.filter isSparse = [] := by
  refine List.filter_eq_nil_iff.mpr fun share member sparse => ?_
  rw [isSparse, Share.space_of_ns (stands share member)] at sparse
  rcases reserved with same | same
  · rw [same] at sparse
    contradiction
  · rw [same] at sparse
    contradiction

/-- Shares above the namespaces of transactions are sparse. -/
theorem filter_isSparse_eq_self {shares : List Share}
    (high : ∀ share ∈ shares, Namespace.reservedPadding ≤ share.space) :
    shares.filter isSparse = shares := by
  refine List.filter_eq_self.mpr fun share member => ?_
  have apart : ∀ {ns : Namespace}, ns < Namespace.reservedPadding → (share.space != ns) = true := by
    intro ns below
    rw [bne_iff_ne]
    exact (Namespace.ne_of_lt (Namespace.lt_of_lt_of_le below (high share member))).symm
  rw [isSparse, apart (by decide), apart (by decide)]
  rfl

variable {capacity cursor : Nat} {previous : Option Namespace} {entries : List (Nat × Blob)}
  {txs : List Bytes} {blobs : List Blob} {squareSize : Nat} {shares : List Share}

/-- The blobs that were placed are read in their order, with whatever is read behind them. -/
theorem readsAs_append_of_blobShares
    (laid : blobShares capacity cursor previous entries = .ok shares)
    (valid : ∀ entry ∈ entries, entry.2.validate = .ok ()) {behind : List Share}
    {later : List Blob} (reads : Sparse.ReadsAs behind later) :
    Sparse.ReadsAs (shares ++ behind) (entries.map Prod.snd ++ later) := by
  induction entries generalizing cursor previous shares with
  | nil =>
    rw [blobShares_nil_eq_ok.mp laid]
    exact reads
  | cons entry entries ih =>
    obtain ⟨first, head⟩ := entry
    obtain ⟨_, writable, placed, rest, rfl⟩ := blobShares_cons_eq_ok.mp laid
    have own := Blob.validate_eq_ok.mp (valid (first, head) List.mem_cons_self)
    have others := ih rest fun entry member => valid entry (List.mem_cons_of_mem _ member)
    have blob := others.cons own.2.1 writable (Namespace.isSparse_of_valid own.1)
    rw [paddingBefore_eq, List.append_assoc, List.append_assoc]
    exact blob.padding (paddingSpace previous) (first - cursor)

/-- Behind the transactions, a square is read as its blobs. -/
theorem readsAs_of_split (made : split txs blobs squareSize = .ok shares)
    (valid : ∀ blob ∈ blobs, blob.validate = .ok ()) :
    Sparse.ReadsAs (shares.filter isSparse) blobs := by
  have published : ∀ blob ∈ blobs, blob.ns.validateForBlob = .ok () :=
    fun blob member => (Blob.validate_eq_ok.mp (valid blob member)).1
  obtain ⟨_, txShares, placed, found, count, laid, _, same⟩ := split_eq_ok.mp made
  obtain ⟨_, _, shareIndexes, _, rfl⟩ := TxShares.ofTxs_eq_ok.mp found
  let tail := squareSize * squareSize -
    ((TxShares.ofStreams txs shareIndexes).shares ++ placed).length
  have ordinary := filter_isSparse_eq_nil (fun _ => @Compact.ns_of_mem_sequenceOf
    Namespace.transaction (TxShares.ordinaryTxs txs) _) (.inl rfl)
  have wrapped := filter_isSparse_eq_nil (fun _ => @Compact.ns_of_mem_sequenceOf
    Namespace.payForBlob (TxShares.wrappedTxs txs) _) (.inr rfl)
  have rest := filter_isSparse_eq_self fun share (member : share ∈ placed ++
    Share.tailPadding tail) => reservedPadding_le_of_blobShares laid
      (fun _ => valid_of_mem_zip published) member
  have remaining : shares.filter isSparse = placed ++ Share.tailPadding tail := by
    rw [same, List.append_assoc, List.filter_append, rest, TxShares.shares, TxShares.ofStreams,
      List.filter_append, ordinary, wrapped, List.append_nil, List.nil_append]
  have reads := readsAs_append_of_blobShares laid
    (fun entry member => valid entry.2 (List.of_mem_zip member).2)
    (Sparse.ReadsAs.nil.padding Namespace.tailPadding tail)
  have paired : ((TxShares.ofStreams txs shareIndexes).sortedIndexes.zip blobs).map Prod.snd =
      blobs :=
    List.map_snd_zip (Nat.le_of_eq ((TxShares.length_sortedIndexes _).trans count).symm)
  rw [paired, List.append_nil, List.append_nil] at reads
  rw [remaining]
  exact reads

/-- A square is read back. Its shares in the namespace of transactions hold the ordinary
transactions, those in the one of index wrappers hold the wrappers, and the rest holds the blobs,
all in their order. -/
theorem parse_of_split (made : split txs blobs squareSize = .ok shares)
    (valid : ∀ blob ∈ blobs, blob.validate = .ok ()) :
    (TxShares.ordinaryTxs txs ≠ [] →
      Compact.parse (shares.filter fun share => share.space == Namespace.transaction) =
        .ok (TxShares.ordinaryTxs txs)) ∧
    (TxShares.wrappedTxs txs ≠ [] →
      Compact.parse (shares.filter fun share => share.space == Namespace.payForBlob) =
        .ok (TxShares.wrappedTxs txs)) ∧
    Sparse.parse (shares.filter isSparse) = .ok blobs := by
  have compact := filter_space_of_split made
    fun blob member => (Blob.validate_eq_ok.mp (valid blob member)).1
  obtain ⟨_, _, _, found, _⟩ := split_eq_ok.mp made
  obtain ⟨short, wrappedShort, _⟩ := TxShares.ofTxs_eq_ok.mp found
  refine ⟨fun nonempty => ?_, fun nonempty => ?_, readsAs_of_split made valid 0⟩
  · rw [compact.1]
    exact Compact.parse_sequenceOf (by decide) nonempty short
  · rw [compact.2]
    exact Compact.parse_sequenceOf (by decide) nonempty wrappedShort

/-- The block of one byte is read back from its square. -/
theorem parse_of_split_oneByte : ∃ shares,
    (BlockData.forBlob (.replicate 20 0) ⟨Namespace.lowestUser, 1, .replicate 32 0, 0⟩
      .oneByte).square = .ok shares ∧
    Compact.parse (shares.filter fun share => share.space == Namespace.transaction) =
      .ok [[1]] ∧
    Compact.parse (shares.filter fun share => share.space == Namespace.payForBlob) =
      .ok [Format.indexWrapper.encode (IndexWrapper.forBlob (.replicate 20 0)
        ⟨Namespace.lowestUser, 1, .replicate 32 0, 0⟩)] ∧
    Sparse.parse (shares.filter isSparse) = .ok [.oneByte] := by
  obtain ⟨first, second, made, _, _⟩ := BlockData.square_forBlob (.replicate 20 0)
    ⟨Namespace.lowestUser, 1, .replicate 32 0, 0⟩ .oneByte Blob.validate_oneByte rfl
    Blob.isWritable_oneByte
  have valid : ∀ blob ∈ [Blob.oneByte], blob.validate = .ok () := by
    intro blob member
    rw [List.mem_singleton.mp member]
    exact Blob.validate_oneByte
  have parts := parse_of_split made valid
  rw [TxShares.ordinaryTxs_forBlob, TxShares.wrappedTxs_forBlob] at parts
  exact ⟨_, made, parts.1 (List.cons_ne_nil _ _), parts.2.1 (List.cons_ne_nil _ _), parts.2.2⟩

end Square

end DataSquare
