import DataSquare.Proofs.Consensus
import DataSquare.Proofs.Inclusion.Complete
import DataSquare.Proofs.Proposal.SingleBlob
import DataSquare.Proofs.Share.UnitRange

/-!
# Transactions are provable

Ordinary transactions and index wrappers are written to sequences of their own, the second behind
the first. A transaction is found in its sequence by counting those of its kind in front of it, so
the shares of its unit hold it and not a neighbour, and all of them are in the namespace of the
sequence. In an accepted block the square has a header, and so every transaction has a proof.
-/
namespace DataSquare

namespace TxShares

/-- The transactions that are written to the same sequence as a given one. -/
def sameKind (raw : Bytes) (txs : List Bytes) : List Bytes :=
  txs.filter fun tx => IndexWrapper.isMarked tx == IndexWrapper.isMarked raw

/-- The namespace of the sequence that a transaction is written to. -/
def sequenceSpace (raw : Bytes) : Namespace :=
  if IndexWrapper.isMarked raw then Namespace.payForBlob else Namespace.transaction

/-- The first share of the sequence that a transaction of a block is written to. -/
def sequenceStart (txs : List Bytes) (raw : Bytes) : Nat :=
  if IndexWrapper.isMarked raw then compactSharesNeeded (Compact.stream (ordinaryTxs txs)).length
  else 0

/-- Index wrappers are in the sequence of index wrappers. -/
theorem sameKind_of_marked {raw : Bytes} (marked : IndexWrapper.isMarked raw = true)
    (txs : List Bytes) : sameKind raw txs = wrappedTxs txs := by
  rw [sameKind, wrappedTxs, marked]
  exact List.filter_congr fun tx _ => beq_true (IndexWrapper.isMarked tx)

/-- Other transactions are in the sequence of ordinary transactions. -/
theorem sameKind_of_unmarked {raw : Bytes} (unmarked : IndexWrapper.isMarked raw = false)
    (txs : List Bytes) : sameKind raw txs = ordinaryTxs txs := by
  rw [sameKind, ordinaryTxs, unmarked]
  exact List.filter_congr fun tx _ => beq_false (IndexWrapper.isMarked tx)

/-- The sequences of transactions are compact. -/
theorem compact_sequenceSpace (raw : Bytes) : (sequenceSpace raw == Namespace.transaction ||
    sequenceSpace raw == Namespace.payForBlob) = true := by
  unfold sequenceSpace
  split <;> decide

/-- A transaction comes in its sequence after those of its kind that come before it. -/
theorem sameKind_of_listed {txs : List Bytes} {index : Nat} {raw : Bytes}
    (listed : txs[index]? = some raw) : sameKind raw txs =
      sameKind raw (txs.take index) ++ raw :: sameKind raw (txs.drop (index + 1)) := by
  have parts : txs = txs.take index ++ raw :: txs.drop (index + 1) := by
    obtain ⟨inside, same⟩ := List.getElem?_eq_some_iff.mp listed
    rw [← same, ← List.drop_eq_getElem_cons inside, List.take_append_drop]
  conv_lhs => rw [parts]
  rw [sameKind, List.filter_append, List.filter_cons, if_pos (beq_self_eq_true _)]
  rfl

/-- The shares of transactions hold the sequence of each of them, behind those of the ordinary
transactions for an index wrapper. -/
theorem exists_parts_of_ofStreams (txs : List Bytes) (shareIndexes : List UInt32) (raw : Bytes) :
    ∃ before after, before.length = sequenceStart txs raw ∧
      (ofStreams txs shareIndexes).shares =
        before ++ (Compact.sequenceOf (sequenceSpace raw) (sameKind raw txs)).shares ++ after := by
  rw [shares, ofStreams]
  cases marked : IndexWrapper.isMarked raw with
  | true =>
    refine ⟨(Compact.sequenceOf Namespace.transaction (ordinaryTxs txs)).shares, [], ?_, ?_⟩
    · rw [Compact.length_sequenceOf, sequenceStart, if_pos marked]
    · rw [sameKind_of_marked marked, sequenceSpace, if_pos marked, List.append_nil]
  | false =>
    have unmarked : ¬ IndexWrapper.isMarked raw = true := by
      rw [marked]
      exact Bool.false_ne_true
    refine ⟨[], (Compact.sequenceOf Namespace.payForBlob (wrappedTxs txs)).shares, ?_, ?_⟩
    · rw [sequenceStart, if_neg unmarked, List.length_nil]
    · rw [sameKind_of_unmarked marked, sequenceSpace, if_neg unmarked, List.nil_append]

end TxShares

/-- The square of a block holds the sequence of each transaction. -/
theorem Square.exists_sequence_of_split {txs : List Bytes} {blobs : List Blob} {squareSize : Nat}
    {shares : List Share} (made : split txs blobs squareSize = .ok shares) (raw : Bytes) :
    ∃ before after, before.length = TxShares.sequenceStart txs raw ∧
      shares = before ++ (Compact.sequenceOf (TxShares.sequenceSpace raw)
        (TxShares.sameKind raw txs)).shares ++ after := by
  obtain ⟨_, txShares, placed, found, _, _, _, whole⟩ := split_eq_ok.mp made
  obtain ⟨_, _, shareIndexes, _, rfl⟩ := TxShares.ofTxs_eq_ok.mp found
  obtain ⟨before, after, start, parts⟩ := TxShares.exists_parts_of_ofStreams txs shareIndexes raw
  rw [parts, List.append_assoc, List.append_assoc] at whole
  exact ⟨before, _, start, whole⟩

namespace ShareProof

/-- The range of a transaction is that of its unit, counted from the start of its sequence. -/
theorem txRange_ofStreams {txs : List Bytes} (shareIndexes : List UInt32) {index : Nat}
    {raw : Bytes} {range : Compact.ShareRange} (listed : txs[index]? = some raw)
    (found : (Compact.sequenceOf (TxShares.sequenceSpace raw)
      (TxShares.sameKind raw txs)).unitRanges[(TxShares.sameKind raw (txs.take index)).length]? =
        some range) :
    txRange txs (TxShares.ofStreams txs shareIndexes) index =
      some ⟨TxShares.sequenceStart txs raw + range.start,
        TxShares.sequenceStart txs raw + range.stop⟩ := by
  have position : (TxShares.sameKind raw (txs.take index)).length = (txs.take index).countP
      fun tx => IndexWrapper.isMarked tx == IndexWrapper.isMarked raw :=
    List.countP_eq_length_filter.symm
  rw [position] at found
  rw [txRange, listed]
  cases marked : IndexWrapper.isMarked raw with
  | true =>
    rw [TxShares.sameKind_of_marked marked, TxShares.sequenceSpace, if_pos marked, marked] at found
    simp only [marked, if_true, TxShares.ofStreams, found, Option.map_some,
      TxShares.sequenceStart, Compact.length_sequenceOf]
  | false =>
    have unmarked : ¬ IndexWrapper.isMarked raw = true := by
      rw [marked]
      exact Bool.false_ne_true
    rw [TxShares.sameKind_of_unmarked marked, TxShares.sequenceSpace, if_neg unmarked,
      marked] at found
    simp only [marked, Bool.false_eq_true, if_false, TxShares.ofStreams, found,
      TxShares.sequenceStart, Nat.zero_add]

/-- A proof is for the shares that hold a transaction of a block: their contents hold it with its
length in front, at the place that is left for it by the transactions of its kind before it. -/
structure ProvesTx (proof : ShareProof) (data : BlockData) (shares : List Share) (index : Nat)
    (raw : Bytes) : Prop where
  /-- The namespace is that of the transactions of its kind. -/
  ns : proof.ns =
    if IndexWrapper.isMarked raw then Namespace.payForBlob else Namespace.transaction
  /-- The shares hold the transaction. -/
  holds : ∃ (first last : Nat) (front back : Bytes),
    proof.ProvesRun shares data.squareSize.toNat first last ∧
      ((shares.drop first).take (last - first)).flatMap Share.content =
        front ++ Compact.delimited raw ++ back ∧
      ((shares.drop (TxShares.sequenceStart data.txs raw)).take
        (first - TxShares.sequenceStart data.txs raw)).flatMap Share.content ++ front =
          Compact.stream (TxShares.sameKind raw (data.txs.take index))

/-- A part of the middle of a list is a part of the list. -/
theorem drop_take_middle {α : Type} (before after : List α) {middle : List α} {low high : Nat}
    (ordered : low ≤ high) (inside : high ≤ middle.length) :
    ((before ++ middle ++ after).drop (before.length + low)).take (high - low) =
      (middle.drop low).take (high - low) := by
  rw [List.append_assoc, List.drop_length_add_append, List.drop_append_of_le_length (by omega),
    List.take_append_of_le_length (by rw [List.length_drop]; omega)]

/-- Every transaction of a block whose square has a header is proven by the shares that hold it, and
the proof is accepted when rows are clear. -/
theorem exists_ofTx {data : BlockData} {shares : List Share} {header : AvailabilityHeader}
    {trees : RowTrees} {index : Nat} {raw : Bytes} (made : data.square = .ok shares)
    (built : AvailabilityHeader.ofShares shares = .ok (header, trees))
    (power : isPowerOfTwo header.squareSize = true) (listed : data.txs[index]? = some raw) :
    ∃ proof, ofTx data index = .ok proof ∧ proof.ProvesTx data shares index raw ∧
      (trees.Clear header → proof.verify header.hash = .ok ()) := by
  obtain ⟨_, txShares, _, found, _⟩ := Square.split_eq_ok.mp made
  obtain ⟨_, _, shareIndexes, _, rfl⟩ := TxShares.ofTxs_eq_ok.mp found
  obtain ⟨before, after, start, rfl⟩ := Square.exists_sequence_of_split made raw
  obtain ⟨range, front, back, unit, nonempty, inside, earlier, held⟩ :=
    Compact.exists_range_of_unit (TxShares.sequenceSpace raw)
      (TxShares.compact_sequenceSpace raw) (TxShares.sameKind raw (data.txs.take index)) raw
      (TxShares.sameKind raw (data.txs.drop (index + 1)))
  rw [← TxShares.sameKind_of_listed listed] at unit inside earlier held
  have place := txRange_ofStreams shareIndexes listed unit
  have width : header.squareSize = data.squareSize.toNat :=
    AvailabilityHeader.squareSize_of_ofShares built (Square.length_of_split made)
  have listing : ¬ data.txs.length ≤ index :=
    Nat.not_le.mpr (List.getElem?_eq_some_iff.mp listed).1
  have unitShares := drop_take_middle before after (Nat.le_of_lt nonempty) inside
  have earlierShares := drop_take_middle before after (Nat.zero_le range.start)
    (Nat.le_trans (Nat.le_of_lt nonempty) inside)
  rw [start] at unitShares earlierShares
  have count : TxShares.sequenceStart data.txs raw + range.stop -
      (TxShares.sequenceStart data.txs raw + range.start) = range.stop - range.start := by omega
  obtain ⟨proof, proven, space, run, accepted⟩ := exists_make built power
    (show TxShares.sequenceStart data.txs raw + range.start <
      TxShares.sequenceStart data.txs raw + range.stop by omega)
    (by rw [List.length_append, List.length_append, start]; omega)
    (fun share member => by
      rw [count, unitShares] at member
      exact Compact.ns_of_mem_sequenceOf (List.mem_of_mem_drop (List.mem_of_mem_take member)))
  refine ⟨proof, ?_, ⟨space, _, _, front, back, width ▸ run, ?_, ?_⟩, accepted⟩
  · rw [ofTx, if_neg listing, found]
    simp only [place, made]
    exact proven
  · rw [count, unitShares, held]
  · rw [Nat.add_sub_cancel_left]
    rw [Nat.add_zero, Nat.sub_zero, List.drop_zero] at earlierShares
    rw [earlierShares, earlier]

end ShareProof

/-- Every transaction of an accepted block has a proof, for the shares that hold it, and the proof is
accepted against the hash in the header of the block unless rows of the square are ambiguous and
messages of their trees collide. -/
theorem exists_ofTx_of_accepted {block : Block} {consts : AppConsts}
    (accepted : processProposal block consts = .accepted) :
    ∃ shares header trees, block.data.square = .ok shares ∧
      AvailabilityHeader.ofShares shares = .ok (header, trees) ∧
      ∀ (index : Nat) (raw : Bytes), block.data.txs[index]? = some raw →
        ∃ proof, ShareProof.ofTx block.data index = .ok proof ∧
          proof.ProvesTx block.data shares index raw ∧
          (proof.verify block.header.dataHash = .ok () ∨
            trees.Ambiguous ∧ Sha256.Collision trees.messages) := by
  obtain ⟨_, shares, header, trees, allowed, _, made, built, hash, _⟩ :=
    Process.verify_eq_ok.mp (processProposal_eq_accepted.mp accepted)
  have width : header.squareSize = block.data.squareSize.toNat :=
    AvailabilityHeader.squareSize_of_ofShares built (Square.length_of_split made)
  have power : isPowerOfTwo header.squareSize = true := by
    rw [width]
    exact (AppConsts.isValidSquareSize_iff.mp allowed).1
  refine ⟨shares, header, trees, made, built, fun index raw listed => ?_⟩
  obtain ⟨proof, proven, proves, verified⟩ :=
    ShareProof.exists_ofTx made built power listed
  refine ⟨proof, proven, proves, ?_⟩
  rw [← hash]
  by_cases ambiguous : trees.Ambiguous
  · exact .inr ⟨ambiguous, collision_of_ambiguous_rows built ambiguous⟩
  · exact .inl (verified (RowTrees.clear_of_not_ambiguous header ambiguous))

/-- In the block of one blob of one byte both the ordinary transaction and the index wrapper are
proven, each in its namespace. -/
theorem exists_ofTx_oneByte : ∃ (block : Block) (wrapper : Bytes),
    processProposal block AppVersion.v3.consts = .accepted ∧
      block.data.txs = [[1], wrapper] ∧ IndexWrapper.isMarked wrapper = true ∧
      ∃ shares header trees, block.data.square = .ok shares ∧
        AvailabilityHeader.ofShares shares = .ok (header, trees) ∧
        ∃ first second, ShareProof.ofTx block.data 0 = .ok first ∧
          ShareProof.ofTx block.data 1 = .ok second ∧
          first.ns = Namespace.transaction ∧ second.ns = Namespace.payForBlob ∧
          ((first.verify block.header.dataHash = .ok () ∧
              second.verify block.header.dataHash = .ok ()) ∨
            trees.Ambiguous ∧ Sha256.Collision trees.messages) := by
  obtain ⟨commitment, header, _, accepted⟩ := exists_accepted_oneByte 1 rfl
  have marked := (IndexWrapper.ofBytes_of_toBytes (IndexWrapper.toBytes_forBlob
    (.replicate 20 0) ⟨Namespace.lowestUser, 1, commitment, 0⟩)).1
  obtain ⟨shares, own, trees, made, built, each⟩ := exists_ofTx_of_accepted accepted
  obtain ⟨first, firstProven, firstProves, firstVerified⟩ := each 0 _ rfl
  obtain ⟨second, secondProven, secondProves, secondVerified⟩ := each 1 _ rfl
  refine ⟨_, _, accepted, rfl, marked, shares, own, trees, made, built, first, second,
    firstProven, secondProven, firstProves.ns, ?_, ?_⟩
  · exact secondProves.ns.trans (if_pos marked)
  · rcases firstVerified with one | collision
    · rcases secondVerified with two | collision
      · exact .inl ⟨one, two⟩
      · exact .inr collision
    · exact .inr collision

end DataSquare
