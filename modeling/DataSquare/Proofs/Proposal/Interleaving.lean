import DataSquare.Proofs.Mempool.Interleaving
import DataSquare.Proofs.Proposal.Conserved
import DataSquare.Proofs.Proposal.SingleBlob
import DataSquare.Proofs.Wire.Encodings

/-!
# Blocks do not depend on the interleaving

A mempool decides a block by its ordinary transactions in their order and its blob transactions in
theirs. How the two interleave, and what else was submitted and dropped, decides nothing: the same
totals have the same width, eviction by arrival leaves the same of both kinds, and the layout takes
the two kinds apart.
-/
namespace DataSquare

/-- Candidates of the same kinds are laid out in the same way. -/
theorem Layout.finalize?_congr {left right : List Candidate}
    (same : Candidate.SameKinds left right) (squareSize nonReservedStart : Nat) :
    finalize? squareSize nonReservedStart left = finalize? squareSize nonReservedStart right := by
  rw [finalize?, finalize?, visits?, visits?, same.ordinary, same.paid]

namespace PreparedProposal

/-- Candidates of the same kinds have the same proposal. -/
theorem ofCandidates_congr {left right : List Candidate}
    (same : Candidate.SameKinds left right) (consts : AppConsts) :
    ofCandidates left consts = ofCandidates right consts := by
  rw [ofCandidates, ofCandidates, Estimate.ofCandidates, Estimate.ofCandidates, same.usage_eq]
  cases Estimate.ofUsage (Usage.ofCandidates right) consts with
  | error cause => rfl
  | ok estimate =>
    dsimp only
    rw [Layout.finalize?_congr same]

end PreparedProposal

/-- Submitted transactions of which the same ordinary ones and the same blob transactions are
candidates, in the order of each kind, lead to the same contents, header and hash when earlier
arrival has priority. -/
theorem prepareProposal_eq_of_sameKinds {settings : ConsensusSettings} {consts : AppConsts}
    (taken : settings.consts = .ok consts) {raws others : List Bytes}
    (ordinary : Candidate.ordinaryTxs raws consts = Candidate.ordinaryTxs others consts)
    (paid : Candidate.blobTxs raws consts = Candidate.blobTxs others consts) :
    ∃ prepared, prepareProposal raws .arrival consts = .ok prepared ∧
      prepareProposal others .arrival consts = .ok prepared := by
  have candidates : Candidate.SameKinds (Candidate.collect raws consts)
      (Candidate.collect others consts) := ⟨ordinary, paid⟩
  have fitting := PreparedProposal.sameKinds_fit candidates consts
  have same : prepareProposal raws .arrival consts = prepareProposal others .arrival consts :=
    PreparedProposal.ofCandidates_congr fitting consts
  obtain ⟨_, layout, entries, _, ready, valid, narrow, published⟩ :=
    PreparedProposal.exists_layout taken raws .arrival
  obtain ⟨prepared, made, _⟩ := ready.exists_accepted rfl valid narrow
  have first := published.trans made
  exact ⟨prepared, first, same.symm.trans first⟩

/-- A blob transaction between two ordinary ones, or in front of both with an index wrapper that is
dropped, leads to one block. -/
theorem prepareProposal_eq_of_oneByte :
    ∃ raw content prepared,
      Candidate.ofBytes raw AppVersion.v3.consts = .ok (.blob content) ∧
      prepareProposal [[1, 2], raw, [3]] .arrival AppVersion.v3.consts = .ok prepared ∧
      prepareProposal [raw, [1, 2], IndexWrapper.marker, [3]] .arrival AppVersion.v3.consts =
        .ok prepared := by
  obtain ⟨raw, commitment, read⟩ := Candidate.exists_oneByte
  have between := Candidate.collect_single read
  have first : Candidate.ofBytes [1, 2] AppVersion.v3.consts = .ok (.ordinary [1, 2]) := by rfl
  have last : Candidate.ofBytes [3] AppVersion.v3.consts = .ok (.ordinary [3]) := by rfl
  have dropped : Candidate.ofBytes IndexWrapper.marker AppVersion.v3.consts =
      .error .indexWrapped := by rfl
  have before : Candidate.collect [raw, [1, 2], IndexWrapper.marker, [3]] AppVersion.v3.consts =
      [.blob (BlobCandidate.single Namespace.lowestUser commitment), .ordinary [1, 2],
        .ordinary [3]] := by
    simp [Candidate.collect, first, read, dropped, last, Except.toOption]
  have taken : ConsensusSettings.default.consts = .ok AppVersion.v3.consts := by rfl
  have ordinary : Candidate.ordinaryTxs [[1, 2], raw, [3]] AppVersion.v3.consts =
      Candidate.ordinaryTxs [raw, [1, 2], IndexWrapper.marker, [3]] AppVersion.v3.consts := by
    rw [Candidate.ordinaryTxs, Candidate.ordinaryTxs, between, before]
    rfl
  have blobs : Candidate.blobTxs [[1, 2], raw, [3]] AppVersion.v3.consts =
      Candidate.blobTxs [raw, [1, 2], IndexWrapper.marker, [3]] AppVersion.v3.consts := by
    rw [Candidate.blobTxs, Candidate.blobTxs, between, before]
    rfl
  obtain ⟨prepared, one, other⟩ := prepareProposal_eq_of_sameKinds taken ordinary blobs
  exact ⟨raw, _, prepared, read, one, other⟩

end DataSquare
