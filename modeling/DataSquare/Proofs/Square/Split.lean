import DataSquare.Proofs.Share.Compact
import DataSquare.Proofs.Share.Sparse
import DataSquare.Proofs.Square.Ordered
import DataSquare.Square.Split

/-!
# The square of a block

A square consists of the shares of ordinary transactions, those of index wrappers, those of the
blobs with padding in front of each, and the padding at the end. Every blob stands at its share
index. The four parts stand in different namespaces, so a square determines its parts.
-/
namespace DataSquare

namespace TxShares

/-- The shares of transactions with the share indexes they declare. -/
def ofStreams (txs : List Bytes) (shareIndexes : List UInt32) : TxShares :=
  ⟨Compact.sequenceOf Namespace.transaction (ordinaryTxs txs),
    Compact.sequenceOf Namespace.payForBlob (wrappedTxs txs), shareIndexes⟩

/-- Transactions are written exactly when their index wrappers decode and both streams fit their
length fields. -/
theorem ofTxs_eq_ok {txs : List Bytes} {txShares : TxShares} : ofTxs txs = .ok txShares ↔
    (Compact.stream (ordinaryTxs txs)).length < UInt32.size ∧
      (Compact.stream (wrappedTxs txs)).length < UInt32.size ∧
      ∃ shareIndexes, declaredIndexes txs = .ok shareIndexes ∧
        txShares = ofStreams txs shareIndexes := by
  unfold ofTxs
  cases declaredIndexes txs with
  | error cause => simp
  | ok shareIndexes =>
    by_cases ordinary : (Compact.stream (ordinaryTxs txs)).length < UInt32.size
    · by_cases wrapped : (Compact.stream (wrappedTxs txs)).length < UInt32.size
      · simp [Compact.split_eq_ok.mpr ⟨ordinary, rfl⟩, Compact.split_eq_ok.mpr ⟨wrapped, rfl⟩,
          ordinary, wrapped, ofStreams, eq_comm]
      · have failed : ∀ sequence,
            Compact.split Namespace.payForBlob (wrappedTxs txs) ≠ .ok sequence :=
          fun sequence found => wrapped (Compact.split_eq_ok.mp found).1
        cases split : Compact.split Namespace.payForBlob (wrappedTxs txs) with
        | error cause => simp [Compact.split_eq_ok.mpr ⟨ordinary, rfl⟩, wrapped]
        | ok sequence => exact absurd split (failed sequence)
    · cases split : Compact.split Namespace.transaction (ordinaryTxs txs) with
      | error cause => simp [ordinary]
      | ok sequence => exact absurd (Compact.split_eq_ok.mp split).1 ordinary

/-- The shares of transactions are as many as counted. -/
@[simp] theorem length_shares (txShares : TxShares) :
    txShares.shares.length = txShares.length :=
  List.length_append

/-- The share indexes in the order of the square are those in the order of the transactions. -/
theorem sortedIndexes_perm (txShares : TxShares) :
    txShares.sortedIndexes.Perm (txShares.shareIndexes.map UInt32.toNat) :=
  List.mergeSort_perm _ _

/-- There are as many share indexes in the order of the square. -/
@[simp] theorem length_sortedIndexes (txShares : TxShares) :
    txShares.sortedIndexes.length = txShares.shareIndexes.length := by
  rw [txShares.sortedIndexes_perm.length_eq, List.length_map]

/-- The shares of transactions are in order. -/
theorem ordered_ofStreams (txs : List Bytes) (shareIndexes : List UInt32) :
    Ordered (ofStreams txs shareIndexes).shares := by
  apply (Ordered.of_ns fun _ => Compact.ns_of_mem_sequenceOf).append
    (Ordered.of_ns fun _ => Compact.ns_of_mem_sequenceOf)
  intro left memLeft right memRight
  rw [Share.space_of_ns (Compact.ns_of_mem_sequenceOf memLeft),
    Share.space_of_ns (Compact.ns_of_mem_sequenceOf memRight)]
  decide

/-- The shares of transactions stand no higher than those of index wrappers. -/
theorem space_le_of_mem_ofStreams {txs : List Bytes} {shareIndexes : List UInt32} {share : Share}
    (member : share ∈ (ofStreams txs shareIndexes).shares) :
    share.space ≤ Namespace.payForBlob := by
  rcases List.mem_append.mp member with first | second
  · rw [Share.space_of_ns (Compact.ns_of_mem_sequenceOf first)]
    decide
  · rw [Share.space_of_ns (Compact.ns_of_mem_sequenceOf second)]
    exact Namespace.le_refl _

end TxShares

namespace Square

variable {capacity cursor : Nat} {previous : Option Namespace} {entries : List (Nat × Blob)}
  {shares : List Share}

/-- The namespace of the padding in front of a blob. -/
def paddingSpace (previous : Option Namespace) : Namespace :=
  previous.getD Namespace.reservedPadding

/-- The padding in front of a blob consists of padding shares. -/
theorem paddingBefore_eq (previous : Option Namespace) (count : Nat) :
    paddingBefore previous count =
      List.replicate count (Share.padding (paddingSpace previous)) := by
  cases previous <;> rfl

/-- The padding in front of a blob stands in one namespace. -/
theorem ns_of_mem_paddingBefore {count : Nat} {share : Share}
    (member : share ∈ paddingBefore previous count) : share.ns = .ok (paddingSpace previous) := by
  rw [paddingBefore_eq] at member
  rw [List.eq_of_mem_replicate member]
  exact Share.ns_build

/-- The padding at the end stands in its namespace. -/
theorem ns_of_mem_tailPadding {count : Nat} {share : Share}
    (member : share ∈ Share.tailPadding count) : share.ns = .ok Namespace.tailPadding := by
  rw [List.eq_of_mem_replicate member]
  exact Share.ns_build

/-- A blob is placed exactly when it is written and starts between the cursor and the end of the
square, and the blobs after it are placed behind it. -/
theorem blobShares_cons_eq_ok {index : Nat} {blob : Blob} :
    blobShares capacity cursor previous ((index, blob) :: entries) = .ok shares ↔
      (cursor ≤ index ∧ index ≤ capacity) ∧ blob.IsWritable ∧
        ∃ later, blobShares capacity (index + blob.shares.length) (some blob.ns) entries
            = .ok later ∧
          shares = paddingBefore previous (index - cursor) ++ blob.shares ++ later := by
  rw [blobShares, guard_eq_ok, guard_eq_ok, Nat.not_lt, Nat.not_lt, and_assoc]
  refine and_congr_right fun _ => and_congr_right fun _ => ?_
  constructor
  · intro laid
    cases written : Sparse.splitBlob blob with
    | error cause =>
      rw [written] at laid
      contradiction
    | ok own =>
      obtain ⟨writable, rfl⟩ := Sparse.splitBlob_eq_ok.mp written
      rw [written] at laid
      obtain ⟨later, rest, same⟩ := map_eq_ok.mp laid
      exact ⟨writable, later, rest, same.symm⟩
  · rintro ⟨writable, later, rest, rfl⟩
    rw [Sparse.splitBlob_eq_ok.mpr ⟨writable, rfl⟩]
    exact map_eq_ok.mpr ⟨later, rest, rfl⟩

/-- The shares of no blobs are none. -/
theorem blobShares_nil_eq_ok : blobShares capacity cursor previous [] = .ok shares ↔
    shares = [] := by
  rw [blobShares, Except.ok.injEq, eq_comm]

/-- Every blob stands at its index. -/
theorem prefix_drop_of_blobShares
    (laid : blobShares capacity cursor previous entries = .ok shares) {index : Nat} {blob : Blob}
    (member : (index, blob) ∈ entries) :
    cursor ≤ index ∧ blob.shares <+: shares.drop (index - cursor) := by
  induction entries generalizing cursor previous shares with
  | nil => contradiction
  | cons entry entries ih =>
    obtain ⟨first, head⟩ := entry
    obtain ⟨⟨above, _⟩, _, later, rest, rfl⟩ := blobShares_cons_eq_ok.mp laid
    have gap : (paddingBefore previous (first - cursor)).length = first - cursor := by
      rw [paddingBefore_eq, List.length_replicate]
    rcases List.mem_cons.mp member with same | inside
    · obtain ⟨rfl, rfl⟩ := Prod.mk.inj same
      refine ⟨above, ?_⟩
      rw [List.append_assoc, List.drop_left' gap]
      exact List.prefix_append _ _
    · obtain ⟨beyond, stands⟩ := ih rest inside
      obtain ⟨ahead, rfl⟩ := Nat.exists_eq_add_of_le beyond
      rw [Nat.add_sub_cancel_left] at stands
      have passed : (paddingBefore previous (first - cursor) ++ head.shares).length =
          first - cursor + head.shares.length := by
        rw [List.length_append, gap]
      have offset : first + head.shares.length + ahead - cursor =
          first - cursor + head.shares.length + ahead := by omega
      refine ⟨by omega, ?_⟩
      rw [offset, ← List.drop_drop, List.drop_left' passed]
      exact stands

/-- Later blobs start after earlier ones. -/
theorem pairwise_index_of_blobShares
    (laid : blobShares capacity cursor previous entries = .ok shares) :
    (entries.map Prod.fst).Pairwise (· < ·) := by
  induction entries generalizing cursor previous shares with
  | nil => exact List.Pairwise.nil
  | cons entry entries ih =>
    obtain ⟨first, head⟩ := entry
    obtain ⟨_, _, later, rest, rfl⟩ := blobShares_cons_eq_ok.mp laid
    refine List.Pairwise.cons (fun index member => ?_) (ih rest)
    obtain ⟨⟨_, blob⟩, inside, rfl⟩ := List.mem_map.mp member
    have beyond := (prefix_drop_of_blobShares rest inside).1
    have positive := head.length_shares_pos
    omega

/-- Every share up to the last blob stands in the namespace of a blob or of the padding in front of
the first one. -/
theorem space_of_mem_blobShares
    (laid : blobShares capacity cursor previous entries = .ok shares) {share : Share}
    (member : share ∈ shares) : share.ns = .ok share.space ∧
      share.space ∈ paddingSpace previous :: entries.map fun entry => entry.2.ns := by
  induction entries generalizing cursor previous shares with
  | nil =>
    rw [blobShares_nil_eq_ok.mp laid] at member
    contradiction
  | cons entry entries ih =>
    obtain ⟨first, head⟩ := entry
    obtain ⟨_, _, later, rest, rfl⟩ := blobShares_cons_eq_ok.mp laid
    rcases List.mem_append.mp member with front | back
    · rcases List.mem_append.mp front with padding | own
      · have stands := ns_of_mem_paddingBefore padding
        rw [Share.space_of_ns stands]
        exact ⟨stands, List.mem_cons_self⟩
      · have stands := Blob.ns_of_mem_shares own
        rw [Share.space_of_ns stands]
        exact ⟨stands, List.mem_cons_of_mem _ List.mem_cons_self⟩
    · obtain ⟨stands, space⟩ := ih rest back
      exact ⟨stands, List.mem_cons_of_mem _ space⟩

/-- When the blobs may be published, every share up to the last of them stands between the padding
in front of the first one and the padding at the end. -/
theorem space_range_of_blobShares
    (laid : blobShares capacity cursor none entries = .ok shares)
    (valid : ∀ entry ∈ entries, entry.2.ns.validateForBlob = .ok ()) {share : Share}
    (member : share ∈ shares) :
    Namespace.reservedPadding ≤ share.space ∧ share.space ≤ Namespace.tailPadding := by
  rcases List.mem_cons.mp (space_of_mem_blobShares laid member).2 with same | own
  · rw [same]
    exact ⟨Namespace.le_refl _, by decide⟩
  · obtain ⟨entry, inside, same⟩ := List.mem_map.mp own
    rw [← same]
    exact ⟨Namespace.le_of_lt (Namespace.reservedPadding_lt (valid entry inside)),
      Namespace.le_of_lt (Namespace.lt_tailPadding (valid entry inside))⟩

/-- When the blobs may be published, no share behind the transactions stands below the padding in
front of the first blob. -/
theorem reservedPadding_le_of_blobShares
    (laid : blobShares capacity cursor none entries = .ok shares)
    (valid : ∀ entry ∈ entries, entry.2.ns.validateForBlob = .ok ()) {count : Nat} {share : Share}
    (member : share ∈ shares ++ Share.tailPadding count) :
    Namespace.reservedPadding ≤ share.space := by
  rcases List.mem_append.mp member with blob | tail
  · exact (space_range_of_blobShares laid valid blob).1
  · rw [Share.space_of_ns (ns_of_mem_tailPadding tail)]
    decide

/-- The shares up to the last blob are in order when the namespaces of the blobs are. -/
theorem ordered_of_blobShares
    (laid : blobShares capacity cursor previous entries = .ok shares)
    (sorted : (paddingSpace previous :: entries.map fun entry => entry.2.ns).Pairwise (· ≤ ·)) :
    Ordered shares := by
  induction entries generalizing cursor previous shares with
  | nil =>
    rw [blobShares_nil_eq_ok.mp laid]
    exact ⟨fun _ member => absurd member List.not_mem_nil, List.Pairwise.nil⟩
  | cons entry entries ih =>
    obtain ⟨first, head⟩ := entry
    obtain ⟨_, _, later, rest, rfl⟩ := blobShares_cons_eq_ok.mp laid
    obtain ⟨above, tail⟩ := List.pairwise_cons.mp sorted
    have padded : Ordered (paddingBefore previous (first - cursor) ++ head.shares) := by
      apply (Ordered.of_ns fun _ => ns_of_mem_paddingBefore).append
        (Ordered.of_ns fun _ => Blob.ns_of_mem_shares)
      intro left memLeft right memRight
      rw [Share.space_of_ns (ns_of_mem_paddingBefore memLeft),
        Share.space_of_ns (Blob.ns_of_mem_shares memRight)]
      exact above _ List.mem_cons_self
    apply padded.append (ih rest tail)
    intro left memLeft right memRight
    have space := (space_of_mem_blobShares rest memRight).2
    rcases List.mem_append.mp memLeft with padding | own
    · rw [Share.space_of_ns (ns_of_mem_paddingBefore padding)]
      exact above _ space
    · rw [Share.space_of_ns (Blob.ns_of_mem_shares own)]
      rcases List.mem_cons.mp space with same | other
      · exact same ▸ Namespace.le_refl _
      · exact (List.pairwise_cons.mp tail).1 _ other

/-- A square is made exactly when the number of its shares fits 64 bits, its transactions and blobs
are written, there is one share index for each blob, and everything fits. -/
theorem split_eq_ok {txs : List Bytes} {blobs : List Blob} {squareSize : Nat} :
    split txs blobs squareSize = .ok shares ↔ squareSize * squareSize < UInt64.size ∧
      ∃ txShares placed, TxShares.ofTxs txs = .ok txShares ∧ txShares.shareIndexes.length = blobs.length ∧
        blobShares (squareSize * squareSize) txShares.length none
          (txShares.sortedIndexes.zip blobs) = .ok placed ∧
        (txShares.shares ++ placed).length ≤ squareSize * squareSize ∧
        shares = txShares.shares ++ placed ++ Share.tailPadding
          (squareSize * squareSize - (txShares.shares ++ placed).length) := by
  unfold split
  constructor
  · intro made
    split at made
    · contradiction
    rename_i word
    obtain ⟨countable, rfl⟩ := word?_eq_some_iff.mp word
    refine ⟨countable, ?_⟩
    cases found : TxShares.ofTxs txs with
    | error cause =>
      rw [found] at made
      contradiction
    | ok txShares =>
      rw [found] at made
      obtain ⟨count, made⟩ := guard_eq_ok.mp made
      cases laid : blobShares (squareSize * squareSize) txShares.length none
          (txShares.sortedIndexes.zip blobs) with
      | error cause =>
        rw [laid] at made
        contradiction
      | ok placed =>
        rw [laid] at made
        obtain ⟨fits, same⟩ := guard_eq_ok.mp made
        exact ⟨txShares, placed, rfl, Decidable.not_not.mp count, laid, Nat.not_lt.mp fits,
          (Except.ok.inj same).symm⟩
  · rintro ⟨countable, txShares, placed, found, count, laid, fits, rfl⟩
    rw [word?_eq_some_iff.mpr ⟨countable, rfl⟩, found]
    refine guard_eq_ok.mpr ⟨Decidable.not_not.mpr count, ?_⟩
    rw [laid]
    exact guard_eq_ok.mpr ⟨Nat.not_lt.mpr fits, rfl⟩

/-- A square is full. -/
theorem length_of_split {txs : List Bytes} {blobs : List Blob} {squareSize : Nat}
    (made : split txs blobs squareSize = .ok shares) :
    shares.length = squareSize * squareSize := by
  obtain ⟨_, txShares, placed, _, _, _, fits, rfl⟩ := split_eq_ok.mp made
  have tail : (Share.tailPadding (squareSize * squareSize -
      (txShares.shares ++ placed).length)).length =
      squareSize * squareSize - (txShares.shares ++ placed).length := List.length_replicate
  rw [List.length_append, tail]
  omega

/-- Every blob of a square is written. -/
theorem isWritable_of_blobShares
    (laid : blobShares capacity cursor previous entries = .ok shares) {index : Nat} {blob : Blob}
    (member : (index, blob) ∈ entries) : blob.IsWritable := by
  induction entries generalizing cursor previous shares with
  | nil => contradiction
  | cons entry entries ih =>
    obtain ⟨first, head⟩ := entry
    obtain ⟨_, writable, later, rest, rfl⟩ := blobShares_cons_eq_ok.mp laid
    rcases List.mem_cons.mp member with same | inside
    · obtain ⟨rfl, rfl⟩ := Prod.mk.inj same
      exact writable
    · exact ih rest inside

section Parts

variable {txs : List Bytes} {blobs : List Blob} {squareSize : Nat}

/-- Every blob of a square is written and stands at the share index of its rank. -/
theorem prefix_drop_of_split (made : split txs blobs squareSize = .ok shares)
    {txShares : TxShares} (written : TxShares.ofTxs txs = .ok txShares) {index : Nat} {blob : Blob}
    (member : (index, blob) ∈ txShares.sortedIndexes.zip blobs) :
    blob.IsWritable ∧ blob.shares <+: shares.drop index := by
  obtain ⟨_, _, placed, found, _, laid, _, rfl⟩ := split_eq_ok.mp made
  obtain rfl : txShares = _ := Except.ok.inj (written.symm.trans found)
  obtain ⟨above, stands⟩ := prefix_drop_of_blobShares laid member
  refine ⟨isWritable_of_blobShares laid member, ?_⟩
  have inside : index - txShares.length ≤ placed.length := by
    by_contra outside
    rw [List.drop_of_length_le (by omega), List.prefix_nil] at stands
    have positive := blob.length_shares_pos
    rw [stands] at positive
    exact absurd positive (Nat.lt_irrefl 0)
  have offset : index = txShares.shares.length + (index - txShares.length) := by
    rw [TxShares.length_shares]
    omega
  rw [offset, List.append_assoc, ← List.drop_drop, List.drop_left,
    List.drop_append_of_le_length inside]
  exact stands.trans (List.prefix_append _ _)

/-- Every blob of a square is written and stands at the share index of its rank. -/
theorem prefix_drop_of_rank (made : split txs blobs squareSize = .ok shares)
    {txShares : TxShares} (written : TxShares.ofTxs txs = .ok txShares) {rank index : Nat}
    (entry : txShares.sortedIndexes[rank]? = some index) (inside : rank < blobs.length) :
    blobs[rank].IsWritable ∧ blobs[rank].shares <+: shares.drop index :=
  prefix_drop_of_split made written (List.mem_of_getElem?
    (List.getElem?_zip_eq_some.mpr ⟨entry, List.getElem?_eq_getElem inside⟩))

/-- The blobs that are placed in a square may be published when all of them may. -/
theorem valid_of_mem_zip {indexes : List Nat}
    (valid : ∀ blob ∈ blobs, blob.ns.validateForBlob = .ok ()) {entry : Nat × Blob}
    (member : entry ∈ indexes.zip blobs) : entry.2.ns.validateForBlob = .ok () :=
  valid entry.2 (List.of_mem_zip member).2

/-- The shares of a square are in order when its blobs may be published and are sorted. -/
theorem ordered_of_split (made : split txs blobs squareSize = .ok shares)
    (valid : ∀ blob ∈ blobs, blob.ns.validateForBlob = .ok ())
    (sorted : (blobs.map Blob.ns).Pairwise (· ≤ ·)) : Ordered shares := by
  obtain ⟨_, txShares, placed, found, count, laid, _, rfl⟩ := split_eq_ok.mp made
  obtain ⟨_, _, shareIndexes, _, rfl⟩ := TxShares.ofTxs_eq_ok.mp found
  have paired : ((TxShares.ofStreams txs shareIndexes).sortedIndexes.zip blobs).map
      (fun entry => entry.2.ns) = blobs.map Blob.ns := by
    have seconds := List.map_snd_zip
      (Nat.le_of_eq ((TxShares.length_sortedIndexes _).trans count).symm)
    conv_rhs => rw [← seconds, List.map_map]
    rfl
  have blobsOrdered : Ordered placed := by
    apply ordered_of_blobShares laid
    rw [paired, List.pairwise_cons]
    refine ⟨fun ns member => ?_, sorted⟩
    obtain ⟨blob, inside, rfl⟩ := List.mem_map.mp member
    exact Namespace.le_of_lt (Namespace.reservedPadding_lt (valid blob inside))
  have low : ∀ share ∈ (TxShares.ofStreams txs shareIndexes).shares,
      share.space ≤ Namespace.payForBlob := fun _ => TxShares.space_le_of_mem_ofStreams
  have range : ∀ share ∈ placed, Namespace.reservedPadding ≤ share.space ∧
      share.space ≤ Namespace.tailPadding :=
    fun _ => space_range_of_blobShares laid fun _ => valid_of_mem_zip valid
  apply ((TxShares.ordered_ofStreams txs shareIndexes).append blobsOrdered
    fun left memLeft right memRight => ?_).append
    (Ordered.of_ns fun _ => ns_of_mem_tailPadding) fun left memLeft right memRight => ?_
  · exact Namespace.le_trans (low left memLeft)
      (Namespace.le_trans (by decide) (range right memRight).1)
  · rw [Share.space_of_ns (ns_of_mem_tailPadding memRight)]
    rcases List.mem_append.mp memLeft with tx | blob
    · exact Namespace.le_trans (low left tx) (by decide)
    · exact (range left blob).2

/-- Shares that stand in a namespace are all found there. -/
theorem filter_space_eq_self {ns : Namespace} (stands : ∀ share ∈ shares, share.ns = .ok ns) :
    (shares.filter fun share => share.space == ns) = shares := by
  refine List.filter_eq_self.mpr fun share member => ?_
  rw [Share.space_of_ns (stands share member)]
  exact beq_self_eq_true ns

/-- Shares that stand elsewhere are not found in a namespace. -/
theorem filter_space_eq_nil {ns : Namespace} (elsewhere : ∀ share ∈ shares, share.space ≠ ns) :
    (shares.filter fun share => share.space == ns) = [] := by
  refine List.filter_eq_nil_iff.mpr fun share member equal => ?_
  rw [beq_iff_eq] at equal
  exact elsewhere share member equal

/-- Shares in the namespaces of transactions are told apart from each other and from those in higher
namespaces. -/
theorem filter_space_append {first second rest : List Share}
    (ordinary : ∀ share ∈ first, share.ns = .ok Namespace.transaction)
    (wrapped : ∀ share ∈ second, share.ns = .ok Namespace.payForBlob)
    (high : ∀ share ∈ rest, Namespace.reservedPadding ≤ share.space) :
    ((first ++ second ++ rest).filter fun share => share.space == Namespace.transaction) = first ∧
      ((first ++ second ++ rest).filter fun share => share.space == Namespace.payForBlob) =
        second := by
  have above : ∀ {ns : Namespace}, ns < Namespace.reservedPadding →
      (rest.filter fun share => share.space == ns) = [] := by
    intro ns below
    apply filter_space_eq_nil
    intro share member equal
    exact Namespace.not_lt.mpr (high share member) (equal ▸ below)
  have apart : ∀ share ∈ second, share.space ≠ Namespace.transaction := by
    intro share member
    rw [Share.space_of_ns (wrapped share member)]
    decide
  have below : ∀ share ∈ first, share.space ≠ Namespace.payForBlob := by
    intro share member
    rw [Share.space_of_ns (ordinary share member)]
    decide
  simp only [List.filter_append]
  constructor
  · rw [filter_space_eq_self ordinary, filter_space_eq_nil apart, above (by decide),
      List.append_nil, List.append_nil]
  · rw [filter_space_eq_nil below, filter_space_eq_self wrapped, above (by decide),
      List.append_nil, List.nil_append]

/-- The shares of a square in a namespace of transactions are those of the transactions in it, when
the blobs may be published. -/
theorem filter_space_of_split (made : split txs blobs squareSize = .ok shares)
    (valid : ∀ blob ∈ blobs, blob.ns.validateForBlob = .ok ()) :
    (shares.filter fun share => share.space == Namespace.transaction) =
        (Compact.sequenceOf Namespace.transaction (TxShares.ordinaryTxs txs)).shares ∧
      (shares.filter fun share => share.space == Namespace.payForBlob) =
        (Compact.sequenceOf Namespace.payForBlob (TxShares.wrappedTxs txs)).shares := by
  obtain ⟨_, txShares, placed, found, _, laid, _, rfl⟩ := split_eq_ok.mp made
  obtain ⟨_, _, shareIndexes, _, rfl⟩ := TxShares.ofTxs_eq_ok.mp found
  rw [List.append_assoc]
  exact filter_space_append (fun _ => Compact.ns_of_mem_sequenceOf)
    (fun _ => Compact.ns_of_mem_sequenceOf)
    fun _ => reservedPadding_le_of_blobShares laid fun _ => valid_of_mem_zip valid

/-- There is a share index for each blob of a square. -/
theorem length_shareIndexes_of_split (made : split txs blobs squareSize = .ok shares)
    {txShares : TxShares} (written : TxShares.ofTxs txs = .ok txShares) :
    txShares.shareIndexes.length = blobs.length := by
  obtain ⟨_, _, _, found, count, _⟩ := split_eq_ok.mp made
  rw [Except.ok.inj (written.symm.trans found)]
  exact count

/-- A square determines its blobs, when the share indexes are the same. -/
theorem blobs_eq_of_shareIndexes_eq {otherTxs : List Bytes} {otherBlobs : List Blob}
    {txShares otherShares : TxShares}
    (made : split txs blobs squareSize = .ok shares)
    (otherMade : split otherTxs otherBlobs squareSize = .ok shares)
    (written : TxShares.ofTxs txs = .ok txShares)
    (otherWritten : TxShares.ofTxs otherTxs = .ok otherShares)
    (same : txShares.shareIndexes = otherShares.shareIndexes) : blobs = otherBlobs := by
  have count := length_shareIndexes_of_split made written
  have otherCount := length_shareIndexes_of_split otherMade otherWritten
  have sorted : txShares.sortedIndexes = otherShares.sortedIndexes := by
    rw [TxShares.sortedIndexes, same, TxShares.sortedIndexes]
  apply List.ext_getElem (count.symm.trans (same ▸ otherCount))
  intro rank inside otherInside
  -- Both blobs of a rank stand at one share index, where only one sequence starts.
  have ranked : rank < txShares.sortedIndexes.length := by
    rw [TxShares.length_sortedIndexes, count]
    exact inside
  obtain ⟨index, entry⟩ : ∃ index, txShares.sortedIndexes[rank]? = some index :=
    ⟨_, List.getElem?_eq_getElem ranked⟩
  obtain ⟨⟨size, version⟩, stands⟩ := prefix_drop_of_rank made written entry inside
  rw [sorted] at entry
  obtain ⟨⟨otherSize, otherVersion⟩, otherStands⟩ :=
    prefix_drop_of_rank otherMade otherWritten entry otherInside
  obtain ⟨ns, shareVersion, data⟩ := Sparse.sharesOf_unique size version otherSize
    otherVersion stands otherStands
  exact Blob.ext ns data shareVersion

/-- A square determines its ordinary transactions, its index wrappers and its blobs, when the blobs
may be published. -/
theorem parts_eq_of_split_eq {otherTxs : List Bytes} {otherBlobs : List Blob}
    (made : split txs blobs squareSize = .ok shares)
    (otherMade : split otherTxs otherBlobs squareSize = .ok shares)
    (valid : ∀ blob ∈ blobs, blob.ns.validateForBlob = .ok ())
    (otherValid : ∀ blob ∈ otherBlobs, blob.ns.validateForBlob = .ok ()) :
    TxShares.ordinaryTxs txs = TxShares.ordinaryTxs otherTxs ∧
      TxShares.wrappedTxs txs = TxShares.wrappedTxs otherTxs ∧ blobs = otherBlobs := by
  obtain ⟨_, txShares, _, written, _⟩ := split_eq_ok.mp made
  obtain ⟨_, otherShares, _, otherWritten, _⟩ := split_eq_ok.mp otherMade
  obtain ⟨short, wrappedShort, indexes, declared, rfl⟩ := TxShares.ofTxs_eq_ok.mp written
  obtain ⟨otherShort, otherWrappedShort, otherIndexes, otherDeclared, rfl⟩ :=
    TxShares.ofTxs_eq_ok.mp otherWritten
  obtain ⟨ordinary, wrapped⟩ := filter_space_of_split made valid
  obtain ⟨otherOrdinary, otherWrapped⟩ := filter_space_of_split otherMade otherValid
  have ordinaryTxs := Compact.units_eq_of_shares_eq (by decide) short otherShort
    (ordinary.symm.trans otherOrdinary)
  have wrappedTxs := Compact.units_eq_of_shares_eq (by decide) wrappedShort otherWrappedShort
    (wrapped.symm.trans otherWrapped)
  have sameIndexes : indexes = otherIndexes := by
    rw [TxShares.declaredIndexes, wrappedTxs, ← TxShares.declaredIndexes, otherDeclared] at declared
    exact (Except.ok.inj declared).symm
  subst sameIndexes
  exact ⟨ordinaryTxs, wrappedTxs,
    blobs_eq_of_shareIndexes_eq made otherMade written otherWritten rfl⟩

end Parts

end Square

end DataSquare
