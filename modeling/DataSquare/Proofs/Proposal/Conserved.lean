import DataSquare.Proofs.Mempool.Kept
import DataSquare.Proofs.Mempool.Room
import DataSquare.Proofs.Proposal.Prepared

/-!
# What a block keeps of the submitted transactions

A transaction may leave on the way into a block when it is read, when it is evicted, and when its
blobs have no room. None is altered on that way, none comes twice, and what stays is in the order of
arrival: ordinary transactions as they were submitted, and one index wrapper for each blob
transaction, with its inner transaction and a share index for each of its blobs. The blobs travel
apart from their transactions, and are those of the wrapped ones. No blob transaction costs an
ordinary one its place.
-/
namespace DataSquare

section Related

variable {α β : Type} {related : β → α → Prop}

/-- What is taken from some entries of a list is related to these entries, in their order. -/
theorem sublistForall₂_filterMap {take : α → Option β}
    (taken : ∀ item value, take item = some value → related value item) (items : List α) :
    List.SublistForall₂ related (items.filterMap take) items := by
  induction items with
  | nil => exact .nil
  | cons item rest ih =>
    rw [List.filterMap_cons]
    cases found : take item with
    | none => exact .cons_right ih
    | some value => exact .cons (taken item value found) ih

/-- Some of the values that are related to entries of a list are so as well. -/
theorem sublistForall₂_of_sublist {part values : List β} {items : List α}
    (sub : part.Sublist values) (each : List.SublistForall₂ related values items) :
    List.SublistForall₂ related part items := by
  induction each generalizing part with
  | nil =>
    rw [List.sublist_nil.mp sub]
    exact .nil
  | cons first _ ih =>
    cases sub with
    | cons _ sub => exact .cons_right (ih sub)
    | cons_cons _ sub => exact .cons first (ih sub)
  | cons_right _ ih => exact .cons_right (ih sub)

end Related

/-- Whether a submitted transaction is the envelope of a candidate, with its inner transaction and
its blobs. -/
def BlobCandidate.InEnvelope (candidate : BlobCandidate) (raw : Bytes) : Prop :=
  BlobTx.ofBytes raw = .ok ⟨candidate.tx, candidate.blobs⟩

namespace Candidate

/-- The ordinary transactions among submitted ones. -/
def ordinaryTxs (raws : List Bytes) (consts : AppConsts) : List Bytes :=
  (collect raws consts).filterMap ordinary?

/-- The blob transactions among submitted ones. -/
def blobTxs (raws : List Bytes) (consts : AppConsts) : List BlobCandidate :=
  (collect raws consts).filterMap blob?

/-- Ordinary transactions are submitted as they are, in their order. -/
theorem sublist_ordinaryTxs (raws : List Bytes) (consts : AppConsts) :
    (ordinaryTxs raws consts).Sublist raws := by
  have each : List.SublistForall₂ Eq (ordinaryTxs raws consts) raws := by
    rw [ordinaryTxs, collect, List.filterMap_filterMap]
    refine sublistForall₂_filterMap (fun raw tx found => ?_) raws
    cases read : ofBytes raw consts with
    | error cause =>
      rw [read] at found
      contradiction
    | ok candidate =>
      rw [read] at found
      rcases ofBytes_cases read with ⟨rfl, _⟩ | ⟨_, content, rfl, _⟩
      · exact (Option.some.inj found).symm
      · contradiction
  obtain ⟨same, equal, sub⟩ := List.sublistForall₂_iff.mp each
  rw [List.forall₂_eq_eq_eq] at equal
  rwa [equal]

/-- Blob transactions are submitted in their envelopes, in their order. -/
theorem inEnvelopes_blobTxs (raws : List Bytes) (consts : AppConsts) :
    List.SublistForall₂ BlobCandidate.InEnvelope (blobTxs raws consts) raws := by
  rw [blobTxs, collect, List.filterMap_filterMap]
  refine sublistForall₂_filterMap (fun raw content found => ?_) raws
  cases read : ofBytes raw consts with
  | error cause =>
    rw [read] at found
    contradiction
  | ok candidate =>
    rw [read] at found
    rcases ofBytes_cases read with ⟨rfl, _⟩ | ⟨blobTx, own, rfl, opened, accepted⟩
    · contradiction
    · obtain rfl : own = content := Option.some.inj found
      rw [BlobCandidate.InEnvelope, opened, (BlobCandidate.of_ofBlobTx accepted).2.2]

end Candidate

namespace Usage

/-- The ordinary candidates fit on their own exactly when the shares of their transactions do. -/
theorem fits_ordinary_iff {candidates : List Candidate} {consts : AppConsts} :
    (ofCandidates (Eviction.ordinary candidates)).fits consts = true ↔
      compactSharesNeeded (Compact.stream (candidates.filterMap Candidate.ordinary?)).length ≤
        consts.maxShares := by
  obtain ⟨txs, wrappers⟩ := bytes_ofCandidates (Eviction.ordinary candidates)
  rw [Eviction.filterMap_ordinary, ← Compact.length_stream] at txs
  rw [Eviction.filterMap_blob_ordinary] at wrappers
  have blobs := blobShares_ofCandidates (Eviction.ordinary candidates)
  rw [Eviction.filterMap_blob_ordinary] at blobs
  have shares : (ofCandidates (Eviction.ordinary candidates)).shares =
      compactSharesNeeded (Compact.stream (candidates.filterMap Candidate.ordinary?)).length := by
    rw [Usage.shares, reservedShares, txShares, wrapperShares, txs, wrappers, blobs]
    rfl
  rw [fits, shares, decide_eq_true_eq]

end Usage

/-- Whether a transaction of a block is the index wrapper of a candidate, with the inner transaction
and a share index for each blob. -/
def BlobCandidate.WrappedAs (candidate : BlobCandidate) (raw : Bytes) : Prop :=
  IndexWrapper.isMarked raw = true ∧ ∃ shareIndexes,
    IndexWrapper.ofBytes raw = .ok ⟨candidate.tx, shareIndexes⟩ ∧
      shareIndexes.length = candidate.blobs.length

/-- What a block keeps of submitted transactions: some ordinary ones, and some blob transactions as
index wrappers. -/
structure BlockData.Keeps (data : BlockData) (raws : List Bytes) (consts : AppConsts)
    (kept : List Bytes) (wrapped : List BlobCandidate) : Prop where
  /-- Behind the ordinary transactions there is one index wrapper for each blob transaction. -/
  txs : ∃ wrappers, data.txs = kept ++ wrappers ∧
    List.Forall₂ BlobCandidate.WrappedAs wrapped wrappers
  /-- The ordinary transactions are told apart from index wrappers. -/
  unmarked : ∀ tx ∈ kept, IndexWrapper.isMarked tx = false
  /-- The ordinary transactions are some of those that came in. -/
  ordinary : kept.Sublist (Candidate.ordinaryTxs raws consts)
  /-- The ordinary transactions are as they were submitted. -/
  submitted : kept.Sublist raws
  /-- The blob transactions are some of those that came in. -/
  paid : wrapped.Sublist (Candidate.blobTxs raws consts)
  /-- The blob transactions have the inner transactions and the blobs that were submitted. -/
  opened : List.SublistForall₂ BlobCandidate.InEnvelope wrapped raws
  /-- The blobs are those of the blob transactions, sorted by namespaces. -/
  blobs : data.blobs = sortByNamespace (wrapped.flatMap BlobCandidate.blobs)
  /-- All ordinary transactions stay when they fit the largest square on their own. -/
  whole : compactSharesNeeded (Compact.stream (Candidate.ordinaryTxs raws consts)).length ≤
    consts.maxShares → kept = Candidate.ordinaryTxs raws consts
  /-- No blob transaction stays when they do not. -/
  alone : consts.maxShares <
    compactSharesNeeded (Compact.stream (Candidate.ordinaryTxs raws consts)).length →
      wrapped = []

/-- The index wrappers of a layout hold the inner transactions, and a share index for each blob. -/
theorem Layout.Ready.wrappedAs {layout : Layout} {candidates : List BlobCandidate}
    {threshold : Nat} {entries : List (Nat × Slot)}
    (ready : layout.Ready candidates threshold entries) {wrappers : List Bytes}
    (written : layout.placed.mapM PlacedTx.wrap = .ok wrappers) :
    List.Forall₂ BlobCandidate.WrappedAs (layout.placed.map PlacedTx.candidate) wrappers := by
  rw [List.forall₂_map_left_iff]
  have each := (List.forall₂_and_left _ _).mpr
    ⟨fun _ member => member, ready.settled.wrappers_spec written⟩
  refine each.imp ?_
  rintro placed raw ⟨member, marked, back, _⟩
  have count := (ready.settled.starts placed member).1
  exact ⟨marked, placed.shareIndexes, back, count⟩

/-- Whatever was submitted and whatever the order of priority, the block of a proposer keeps what it
holds as it was submitted, in the order of arrival. It keeps all ordinary transactions when these
fit the largest square on their own, and no blob transaction when they do not. -/
theorem keeps_of_prepareProposal {settings : ConsensusSettings} {consts : AppConsts}
    (taken : settings.consts = .ok consts) (raws : List Bytes) (policy : PriorityPolicy) :
    ∃ prepared kept wrapped, prepareProposal raws policy consts = .ok prepared ∧
      prepared.data.Keeps raws consts kept wrapped := by
  obtain ⟨estimate, layout, entries, found, ready, valid, narrow, published⟩ :=
    PreparedProposal.exists_layout taken raws policy
  obtain ⟨prepared, made, _⟩ := ready.exists_accepted rfl valid narrow
  have positive : 0 < layout.squareSize :=
    pos_of_isPowerOfTwo (AppConsts.isValidSquareSize_iff.mp valid).1
  obtain ⟨plain, sorted⟩ := Layout.contents_of_finalize positive found
  obtain ⟨wrappers, written, contents⟩ :=
    Layout.blockData_eq_ok.mp (PreparedProposal.blockData_of_ofLayout made)
  have sub := (PreparedProposal.fit_spec (Candidate.collect raws consts) policy consts).1
  have ordinary : layout.ordinary.Sublist (Candidate.ordinaryTxs raws consts) := by
    rw [plain]
    exact sub.filterMap Candidate.ordinary?
  have paid : (layout.placed.map PlacedTx.candidate).Sublist (Candidate.blobTxs raws consts) :=
    ready.settled.placed.trans (sub.filterMap Candidate.blob?)
  refine ⟨prepared, layout.ordinary, layout.placed.map PlacedTx.candidate, published.trans made, ?_⟩
  exact
    { txs := ⟨wrappers, by rw [contents], ready.wrappedAs written⟩
      unmarked := fun tx member => (ready.ordinary tx member).1
      ordinary
      submitted := ordinary.trans (Candidate.sublist_ordinaryTxs raws consts)
      paid
      opened := sublistForall₂_of_sublist paid (Candidate.inEnvelopes_blobTxs raws consts)
      blobs := by rw [contents, sorted, List.flatMap_map]
      whole := fun fits => plain.trans
        (PreparedProposal.filterMap_ordinary_fit policy
          (ConsensusSettings.bounded_of_consts taken).maxShares_lt
          (Usage.fits_ordinary_iff.mpr fits))
      alone := fun exceeds => by
        have placed := ready.settled.placed
        rw [PreparedProposal.filterMap_blob_fit policy
          (mt Usage.fits_ordinary_iff.mp (Nat.not_le.mpr exceeds))] at placed
        exact List.sublist_nil.mp placed }

/-- Of two ordinary transactions, and between them one that pays for a blob, the block holds the
ordinary ones in the order of their arrival, although the second one has priority, then the index
wrapper of the other, and the blob. -/
theorem keeps_blob_transaction :
    ConsensusSettings.default.consts = .ok AppVersion.v3.consts ∧
      ∃ raw content prepared wrapper,
        Candidate.ofBytes raw AppVersion.v3.consts = .ok (.blob content) ∧
        prepareProposal [[1, 2], raw, [3]] PriorityPolicy.shortest AppVersion.v3.consts =
          .ok prepared ∧
        prepared.data.Keeps [[1, 2], raw, [3]] AppVersion.v3.consts [[1, 2], [3]] [content] ∧
        prepared.data.txs = [[1, 2], [3], wrapper] ∧ content.WrappedAs wrapper ∧
        prepared.data.blobs = [.oneByte] := by
  have taken : ConsensusSettings.default.consts = .ok AppVersion.v3.consts := by rfl
  obtain ⟨raw, commitment, read⟩ := Candidate.exists_oneByte
  have collected := Candidate.collect_single read
  have ordinary : Candidate.ordinaryTxs [[1, 2], raw, [3]] AppVersion.v3.consts =
      [[1, 2], [3]] := by
    rw [Candidate.ordinaryTxs, collected]
    rfl
  have paying : Candidate.blobTxs [[1, 2], raw, [3]] AppVersion.v3.consts =
      [BlobCandidate.single Namespace.lowestUser commitment] := by
    rw [Candidate.blobTxs, collected]
    rfl
  have length : (Compact.stream [[1, 2], [3]]).length = 5 := by
    have one : Varint.size 1 = 1 := by rw [Varint.size, if_pos (by decide)]
    have two : Varint.size 2 = 1 := by rw [Varint.size, if_pos (by decide)]
    rw [Compact.length_stream]
    change [2 + Varint.size 2, 1 + Varint.size 1].sum = 5
    rw [one, two]
    rfl
  have fits : compactSharesNeeded (Compact.stream [[1, 2], [3]]).length ≤
      AppVersion.v3.consts.maxShares := by
    rw [length]
    decide
  obtain ⟨prepared, kept, wrapped, made, keeps⟩ :=
    keeps_of_prepareProposal taken [[1, 2], raw, [3]] PriorityPolicy.shortest
  have blobs := PreparedProposal.blobs_of_single read made
  have all : kept = [[1, 2], [3]] := (keeps.whole (by rwa [ordinary])).trans ordinary
  have placed : wrapped = [BlobCandidate.single Namespace.lowestUser commitment] := by
    rcases List.sublist_singleton.mp (paying ▸ keeps.paid) with nothing | one
    · have empty : prepared.data.blobs = [] := by
        rw [keeps.blobs, nothing]
        exact List.mergeSort_nil
      rw [empty] at blobs
      contradiction
    · exact one
  rw [all, placed] at keeps
  obtain ⟨wrappers, txs, each⟩ := keeps.txs
  obtain ⟨wrapper, rest, wraps, others, rfl⟩ := List.forall₂_cons_left_iff.mp each
  rw [List.forall₂_nil_left_iff] at others
  rw [others] at txs
  exact ⟨taken, raw, _, prepared, wrapper, read, made, keeps, txs, wraps, blobs⟩

end DataSquare
