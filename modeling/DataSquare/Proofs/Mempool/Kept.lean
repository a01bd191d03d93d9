import DataSquare.Proofs.Mempool.Eviction

/-!
# Which transactions eviction keeps

Ordinary transactions stay together when they fit the largest square on their own, however many blob
transactions compete with them: taking all blob transactions out is then enough, and none but blob
transactions go. When they do not fit on their own, no blob transaction stays.
-/
namespace DataSquare

namespace Usage

variable {consts : AppConsts}

/-- Some of the candidates that fit do so as well. -/
theorem fits_of_sublist {part whole : List Candidate} (sub : part.Sublist whole)
    (fits : (ofCandidates whole).fits consts = true) : (ofCandidates part).fits consts = true := by
  have fewer : ∀ count : Candidate → Nat, (part.map count).sum ≤ (whole.map count).sum :=
    fun count => (sub.map count).sum_le_sum fun _ _ => Nat.zero_le _
  have txs := compactSharesNeeded_mono (fewer fun one => (contribution one).txBytes)
  have wrappers := compactSharesNeeded_mono (fewer fun one => (contribution one).wrapperBytes)
  have blobs := fewer fun one => (contribution one).blobShares
  have room : (ofCandidates whole).shares ≤ consts.maxShares := of_decide_eq_true fits
  have below : (ofCandidates part).shares ≤ (ofCandidates whole).shares := by
    rw [ofCandidates_eq, ofCandidates_eq]
    exact Nat.add_le_add (Nat.add_le_add txs wrappers) blobs
  exact decide_eq_true (Nat.le_trans below room)

end Usage

namespace Eviction

variable {candidates : List Candidate} {evicted : List Prioritized} {consts : AppConsts}
  {policy : PriorityPolicy}

/-- The ordinary candidates hold all ordinary transactions. -/
theorem filterMap_ordinary (candidates : List Candidate) :
    (ordinary candidates).filterMap Candidate.ordinary? =
      candidates.filterMap Candidate.ordinary? := by
  rw [ordinary, List.filterMap_filter]
  refine List.filterMap_congr fun candidate _ => ?_
  cases candidate with
  | ordinary tx => rfl
  | blob content => rfl

/-- The ordinary candidates hold no blob transaction. -/
theorem filterMap_blob_ordinary (candidates : List Candidate) :
    (ordinary candidates).filterMap Candidate.blob? = [] := by
  rw [List.filterMap_eq_nil_iff]
  intro candidate member
  cases candidate with
  | ordinary tx => rfl
  | blob content => exact absurd (List.mem_filter.mp member).2 Bool.false_ne_true

/-- Without their positions, those that pass a test are the candidates that pass it. -/
theorem map_candidate_filter_prioritize (test : Candidate → Bool) (candidates : List Candidate) :
    ((prioritize candidates).filter fun one => test one.candidate).map Prioritized.candidate =
      candidates.filter test := by
  conv_rhs => rw [← map_candidate_prioritize candidates, List.filter_map]
  rfl

/-- The blob transactions in the order of eviction and the ordinary candidates are all candidates,
each once. -/
theorem perm_blobOrder (policy : PriorityPolicy) (candidates : List Candidate) :
    candidates.Perm
      ((blobOrder policy candidates).map Prioritized.candidate ++ ordinary candidates) := by
  have blobs : ((blobOrder policy candidates).map Prioritized.candidate).Perm
      (candidates.filter Candidate.paysForBlobs) := by
    rw [← map_candidate_filter_prioritize Candidate.paysForBlobs candidates]
    exact (order_perm policy _).map Prioritized.candidate
  exact (List.filter_append_perm Candidate.paysForBlobs candidates).symm.trans
    (blobs.symm.append_right _)

/-- All ordinary candidates survive when only blob transactions are evicted. -/
theorem ordinary_survivors (inside : ∀ one ∈ evicted, one ∈ prioritize candidates)
    (pays : ∀ one ∈ evicted, one.candidate.paysForBlobs = true) :
    ordinary (survivors candidates evicted) = ordinary candidates := by
  have stays : ∀ one ∈ prioritize candidates,
      (!one.candidate.paysForBlobs && !(evicted.map Prioritized.arrival).contains one.arrival) =
        !one.candidate.paysForBlobs := by
    intro one member
    cases kind : one.candidate.paysForBlobs with
    | true => rfl
    | false =>
      have present : (evicted.map Prioritized.arrival).contains one.arrival = false := by
        rw [Bool.eq_false_iff, ne_eq, List.contains_iff_mem, List.mem_map]
        rintro ⟨victim, out, same⟩
        have equal : victim = one := List.inj_on_of_nodup_map (nodup_arrival_prioritize candidates)
          (inside victim out) member same
        have blob := pays victim out
        rw [equal, kind] at blob
        exact absurd blob Bool.false_ne_true
      rw [present]
      rfl
  calc ordinary (survivors candidates evicted)
    _ = (((prioritize candidates).filter fun one =>
          !(evicted.map Prioritized.arrival).contains one.arrival).filter fun one =>
            !one.candidate.paysForBlobs).map Prioritized.candidate := List.filter_map
    _ = ((prioritize candidates).filter fun one => !one.candidate.paysForBlobs).map
          Prioritized.candidate := by rw [List.filter_filter, List.filter_congr stays]
    _ = ordinary candidates :=
      map_candidate_filter_prioritize (fun candidate => !candidate.paysForBlobs) candidates

/-- Evicting blob transactions leaves all ordinary candidates. -/
theorem ordinary_of_prune {kept : List Candidate}
    (left : prune candidates policy consts = .ok kept) :
    ordinary kept = ordinary candidates := by
  obtain ⟨_, evicted, found, rfl⟩ := prune_iff_victims.mp left
  have front := (victims_eq_some found).1
  have listed : ∀ one ∈ evicted,
      one ∈ prioritize candidates ∧ one.candidate.paysForBlobs = true := by
    intro one member
    have ordered : one ∈ blobOrder policy candidates := front.subset member
    exact List.mem_filter.mp ((order_perm policy _).mem_iff.mp ordered)
  exact ordinary_survivors (fun one member => (listed one member).1)
    fun one member => (listed one member).2

/-- Evicting blob transactions is enough exactly when the ordinary candidates fit on their own and
the number of shares of the largest square fits 64 bits. -/
theorem exists_prune_iff (policy : PriorityPolicy) :
    (∃ kept, prune candidates policy consts = .ok kept) ↔ consts.maxShares < UInt64.size ∧
      (Usage.ofCandidates (ordinary candidates)).fits consts = true := by
  constructor
  · rintro ⟨kept, left⟩
    have fits := (prune_eq_ok left).2
    rw [← ordinary_of_prune left]
    exact ⟨(prune_iff_victims.mp left).1, Usage.fits_of_sublist List.filter_sublist fits⟩
  · rintro ⟨small, alone⟩
    have last : (((blobOrder policy candidates).map Prioritized.candidate).foldl Usage.remove
        (Usage.ofCandidates candidates)).fits consts = true := by
      rwa [Usage.foldl_remove_of_perm (perm_blobOrder policy candidates)]
    obtain ⟨evicted, found⟩ := exists_victims last
    exact ⟨_, prune_iff_victims.mpr ⟨small, evicted, found, rfl⟩⟩

end Eviction

namespace PreparedProposal

variable {candidates : List Candidate} {consts : AppConsts}

/-- A proposer goes on with all ordinary transactions when these fit on their own. -/
theorem filterMap_ordinary_fit (policy : PriorityPolicy) (small : consts.maxShares < UInt64.size)
    (alone : (Usage.ofCandidates (Eviction.ordinary candidates)).fits consts = true) :
    (fit candidates policy consts).filterMap Candidate.ordinary? =
      candidates.filterMap Candidate.ordinary? := by
  have same : Eviction.ordinary (fit candidates policy consts) =
      Eviction.ordinary candidates := by
    rw [fit]
    cases Estimate.ofCandidates candidates consts with
    | ok estimate => rfl
    | error cause =>
      obtain ⟨kept, left⟩ := (Eviction.exists_prune_iff policy).mpr ⟨small, alone⟩
      rw [left]
      exact Eviction.ordinary_of_prune left
  rw [← Eviction.filterMap_ordinary, same, Eviction.filterMap_ordinary]

/-- A proposer goes on with no blob transaction when the ordinary ones do not fit on their own. -/
theorem filterMap_blob_fit (policy : PriorityPolicy)
    (exceeds : ¬ (Usage.ofCandidates (Eviction.ordinary candidates)).fits consts = true) :
    (fit candidates policy consts).filterMap Candidate.blob? = [] := by
  have sub : (fit candidates policy consts).Sublist (Eviction.ordinary candidates) := by
    rw [fit]
    cases estimated : Estimate.ofCandidates candidates consts with
    | ok estimate =>
      have fits := Estimate.fits_of_ofUsage estimated
      exact absurd (Usage.fits_of_sublist List.filter_sublist fits) exceeds
    | error cause =>
      cases pruned : Eviction.prune candidates policy consts with
      | ok kept => exact absurd ((Eviction.exists_prune_iff policy).mp ⟨kept, pruned⟩).2 exceeds
      | error cause =>
        cases left : Eviction.pruneOrdinary candidates policy consts with
        | ok kept => exact (Eviction.pruneOrdinary_eq_ok left).1
        | error cause => exact List.nil_sublist _
  have blobs := sub.filterMap Candidate.blob?
  rw [Eviction.filterMap_blob_ordinary] at blobs
  exact List.sublist_nil.mp blobs

end PreparedProposal

end DataSquare
