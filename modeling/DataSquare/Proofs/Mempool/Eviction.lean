import DataSquare.Proofs.Mempool.Usage
import DataSquare.Proposal.Prepare

/-!
# What is left after eviction

The victims are the shortest front of an order without which the totals fit. Victims and survivors
are all candidates, each once, so the totals that eviction keeps while it takes victims out are
those of the survivors. Whatever the order of priority, the candidates that a proposer goes on with
fit the largest square.
-/
namespace DataSquare

namespace Eviction

variable {candidates : List Candidate} {evicted : List Prioritized} {consts : AppConsts}

/-- Candidates with their positions are the candidates. -/
@[simp] theorem map_candidate_prioritize (candidates : List Candidate) :
    (prioritize candidates).map Prioritized.candidate = candidates := by
  rw [prioritize, List.map_map]
  exact List.zipIdx_map_fst 0 candidates

/-- Candidates with their positions are in the order of these. -/
theorem pairwise_prioritize (candidates : List Candidate) :
    (prioritize candidates).Pairwise fun left right => left.arrival < right.arrival := by
  have positions : (prioritize candidates).map Prioritized.arrival =
      List.range' 0 candidates.length := by
    rw [prioritize, List.map_map]
    exact List.zipIdx_map_snd 0 candidates
  rw [← List.pairwise_map (f := Prioritized.arrival), positions]
  exact List.pairwise_lt_range'

/-- No two candidates have one position. -/
theorem nodup_arrival_prioritize (candidates : List Candidate) :
    ((prioritize candidates).map Prioritized.arrival).Nodup :=
  List.pairwise_map.mpr ((pairwise_prioritize candidates).imp Nat.ne_of_lt)

/-- Whether the first candidates of an order are enough victims for totals. -/
def Enough (consts : AppConsts) (usage : Usage) (order : List Prioritized) (count : Nat) : Prop :=
  count ≤ order.length ∧
    (((order.take count).map Prioritized.candidate).foldl Usage.remove usage).fits consts = true

section Loop

variable {usage : Usage} {order : List Prioritized}

/-- No victims are enough exactly for totals that fit. -/
theorem enough_zero : Enough consts usage order 0 ↔ usage.fits consts = true := by
  simp [Enough]

/-- One more victim is enough exactly when the others are enough without the first. -/
theorem enough_succ {victim : Prioritized} {count : Nat} :
    Enough consts usage (victim :: order) (count + 1) ↔
      Enough consts (usage.remove victim.candidate) order count := by
  simp [Enough]

/-- When some victims are needed, the least number of them counts the first one and those needed
after it. -/
theorem isLeast_enough_succ {victim : Prioritized} (exceeds : ¬ usage.fits consts = true)
    {count : Nat} :
    IsLeast {count | Enough consts usage (victim :: order) count} (count + 1) ↔
      IsLeast {count | Enough consts (usage.remove victim.candidate) order count} count := by
  constructor
  · rintro ⟨enough, least⟩
    refine ⟨enough_succ.mp enough, fun other otherEnough => ?_⟩
    exact Nat.le_of_succ_le_succ (least (enough_succ.mpr otherEnough))
  · rintro ⟨enough, least⟩
    refine ⟨enough_succ.mpr enough, fun other otherEnough => ?_⟩
    cases other with
    | zero => exact absurd (enough_zero.mp otherEnough) exceeds
    | succ other => exact Nat.succ_le_succ (least (enough_succ.mp otherEnough))

/-- Totals that fit need no victims, and none is the least number of them. -/
theorem victims_iff_of_fits (fits : usage.fits consts = true) :
    victims consts usage order = some evicted ↔
      ∃ count, IsLeast {count | Enough consts usage order count} count ∧
        evicted = order.take count := by
  have unneeded : victims consts usage order = some [] := by
    cases order with
    | nil => exact if_pos fits
    | cons victim rest => exact if_pos fits
  have least : IsLeast {count | Enough consts usage order count} 0 :=
    ⟨enough_zero.mpr fits, fun count _ => Nat.zero_le count⟩
  rw [unneeded, Option.some.injEq]
  constructor
  · rintro rfl
    exact ⟨0, least, rfl⟩
  · rintro ⟨count, leastCount, rfl⟩
    rw [leastCount.unique least, List.take_zero]

/-- The victims are the shortest front that is enough. -/
theorem victims_eq_some_iff :
    victims consts usage order = some evicted ↔
      ∃ count, IsLeast {count | Enough consts usage order count} count ∧
        evicted = order.take count := by
  induction order generalizing usage evicted with
  | nil =>
    by_cases fits : usage.fits consts = true
    · exact victims_iff_of_fits fits
    · rw [victims, if_neg fits]
      constructor
      · intro found
        contradiction
      · rintro ⟨count, ⟨⟨_, enough⟩, _⟩, _⟩
        rw [List.take_nil] at enough
        exact absurd enough fits
  | cons victim rest ih =>
    by_cases fits : usage.fits consts = true
    · exact victims_iff_of_fits fits
    · rw [victims, if_neg fits, Option.map_eq_some_iff]
      constructor
      · rintro ⟨later, found, rfl⟩
        obtain ⟨count, least, rfl⟩ := ih.mp found
        exact ⟨count + 1, (isLeast_enough_succ fits).mpr least, rfl⟩
      · rintro ⟨count, least, rfl⟩
        cases count with
        | zero => exact absurd (enough_zero.mp least.1) fits
        | succ count =>
          exact ⟨_, ih.mpr ⟨count, (isLeast_enough_succ fits).mp least, rfl⟩, rfl⟩

/-- Victims are in front of the order in which candidates are evicted, and without them the totals
fit. -/
theorem victims_eq_some (found : victims consts usage order = some evicted) : evicted <+: order ∧
      ((evicted.map Prioritized.candidate).foldl Usage.remove usage).fits consts = true := by
  obtain ⟨count, ⟨⟨_, fits⟩, _⟩, rfl⟩ := victims_eq_some_iff.mp found
  exact ⟨List.take_prefix count order, fits⟩

/-- There are enough victims when the totals fit without all of them. -/
theorem exists_victims
    (last : ((order.map Prioritized.candidate).foldl Usage.remove usage).fits consts = true) :
    ∃ evicted, victims consts usage order = some evicted := by
  have all : Enough consts usage order order.length := by
    rw [Enough, List.take_length]
    exact ⟨Nat.le_refl _, last⟩
  have nonempty : {count | Enough consts usage order count}.Nonempty := ⟨_, all⟩
  exact ⟨_, victims_eq_some_iff.mpr ⟨_, isLeast_csInf nonempty, rfl⟩⟩

end Loop

/-- The candidates at the positions of victims are the victims. -/
theorem perm_filter_evicted (victims : evicted.Subperm (prioritize candidates)) :
    ((prioritize candidates).filter fun one =>
      (evicted.map Prioritized.arrival).contains one.arrival).Perm evicted := by
  obtain ⟨part, perm, sub⟩ := victims
  have distinct := nodup_arrival_prioritize candidates
  have whole : (prioritize candidates).Nodup := distinct.of_map
  refine (List.perm_ext_iff_of_nodup (whole.filter _) (perm.nodup_iff.mp (whole.sublist sub))).mpr
    fun one => ?_
  rw [List.mem_filter, List.contains_iff_mem, List.mem_map]
  constructor
  · rintro ⟨member, other, out, same⟩
    have inside := sub.subset (perm.mem_iff.mpr out)
    rwa [← List.inj_on_of_nodup_map distinct inside member same]
  · intro out
    exact ⟨sub.subset (perm.mem_iff.mpr out), one, out, rfl⟩

/-- Victims and survivors are all candidates, each once. -/
theorem perm_survivors (victims : evicted.Subperm (prioritize candidates)) :
    candidates.Perm (evicted.map Prioritized.candidate ++ survivors candidates evicted) := by
  have parts := (List.filter_append_perm (fun one =>
    (evicted.map Prioritized.arrival).contains one.arrival) (prioritize candidates)).symm
  have whole := (parts.trans ((perm_filter_evicted victims).append_right _)).map
    Prioritized.candidate
  rw [map_candidate_prioritize, List.map_append] at whole
  exact whole

/-- Survivors are candidates in the order of arrival. -/
theorem sublist_survivors (candidates : List Candidate) (evicted : List Prioritized) :
    (survivors candidates evicted).Sublist candidates := by
  have sub := List.Sublist.map Prioritized.candidate (List.filter_sublist (p := fun one =>
    !(evicted.map Prioritized.arrival).contains one.arrival) (l := prioritize candidates))
  rwa [map_candidate_prioritize] at sub

/-- Survivors fit when they are left by victims that make the totals fit. -/
theorem fits_survivors {order : List Prioritized} (all : order.Subperm (prioritize candidates))
    (found : victims consts (Usage.ofCandidates candidates) order = some evicted) :
    (Usage.ofCandidates (survivors candidates evicted)).fits consts = true := by
  obtain ⟨front, fits⟩ := victims_eq_some found
  have parts := perm_survivors (front.sublist.subperm.trans all)
  rwa [Usage.foldl_remove_of_perm parts] at fits

/-- The order in which candidates are evicted has each of them once. -/
theorem order_perm (policy : PriorityPolicy) (candidates : List Prioritized) :
    (order policy candidates).Perm candidates :=
  List.mergeSort_perm _ _

/-- The blob transactions in the order of eviction are some of all candidates. -/
theorem subperm_blobOrder (policy : PriorityPolicy) (candidates : List Candidate) :
    (blobOrder policy candidates).Subperm (prioritize candidates) :=
  (order_perm policy _).subperm.trans List.filter_sublist.subperm

/-- When the number of shares of the largest square fits 64 bits, eviction leaves the survivors of
the victims, if there are enough of these. -/
theorem evictUntilFits_of_lt (small : consts.maxShares < UInt64.size) (order : List Prioritized) :
    evictUntilFits candidates order consts =
      .ok ((victims consts (Usage.ofCandidates candidates) order).map (survivors candidates)) := by
  rw [evictUntilFits, AppConsts.maxShares?, word?_eq_some_iff.mpr ⟨small, rfl⟩]

/-- Nothing is evicted when the number of shares of the largest square does not fit 64 bits. -/
theorem evictUntilFits_of_le (large : UInt64.size ≤ consts.maxShares) (order : List Prioritized) :
    evictUntilFits candidates order consts = .error .overflow := by
  rw [evictUntilFits, AppConsts.maxShares?, word?_eq_none_iff.mpr large]

/-- What is left after evicting blob transactions are the survivors of the victims among them. -/
theorem prune_iff_victims {policy : PriorityPolicy} {kept : List Candidate} :
    prune candidates policy consts = .ok kept ↔ consts.maxShares < UInt64.size ∧
      ∃ evicted, victims consts (Usage.ofCandidates candidates) (blobOrder policy candidates) =
        some evicted ∧ survivors candidates evicted = kept := by
  rw [prune]
  by_cases small : consts.maxShares < UInt64.size
  · rw [evictUntilFits_of_lt small, and_iff_right small]
    cases victims consts (Usage.ofCandidates candidates) (blobOrder policy candidates) with
    | none => simp
    | some evicted => simp
  · rw [evictUntilFits_of_le (Nat.le_of_not_lt small)]
    simp [small]

/-- What is left after evicting blob transactions fits and is in the order of arrival. -/
theorem prune_eq_ok {policy : PriorityPolicy} {kept : List Candidate}
    (left : prune candidates policy consts = .ok kept) :
    kept.Sublist candidates ∧ (Usage.ofCandidates kept).fits consts = true := by
  obtain ⟨_, evicted, found, rfl⟩ := prune_iff_victims.mp left
  constructor
  · exact sublist_survivors candidates evicted
  · exact fits_survivors (subperm_blobOrder policy candidates) found

/-- What is left after evicting ordinary transactions is ordinary, fits and is in the order of
arrival. -/
theorem pruneOrdinary_eq_ok {policy : PriorityPolicy} {kept : List Candidate}
    (left : pruneOrdinary candidates policy consts = .ok kept) :
    kept.Sublist (ordinary candidates) ∧ (Usage.ofCandidates kept).fits consts = true := by
  obtain ⟨outcome, evicting, rfl⟩ := map_eq_ok.mp left
  by_cases small : consts.maxShares < UInt64.size
  · rw [evictUntilFits_of_lt small] at evicting
    obtain rfl := Except.ok.inj evicting
    cases found : victims consts (Usage.ofCandidates (ordinary candidates))
      (order policy (prioritize (ordinary candidates))) with
    | none => exact ⟨List.nil_sublist _, Usage.fits_ofCandidates_nil consts⟩
    | some evicted =>
      exact ⟨sublist_survivors _ evicted, fits_survivors (order_perm policy _).subperm found⟩
  · rw [evictUntilFits_of_le (Nat.le_of_not_lt small)] at evicting
    contradiction

end Eviction

namespace PreparedProposal

/-- The candidates that a proposer goes on with are some of those that came in, in their order, and
fit the largest square. -/
theorem fit_spec (candidates : List Candidate) (policy : PriorityPolicy) (consts : AppConsts) :
    (fit candidates policy consts).Sublist candidates ∧
      (Usage.ofCandidates (fit candidates policy consts)).fits consts = true := by
  unfold fit
  cases estimated : Estimate.ofCandidates candidates consts with
  | ok estimate => exact ⟨List.Sublist.refl candidates, Estimate.fits_of_ofUsage estimated⟩
  | error cause =>
    cases pruned : Eviction.prune candidates policy consts with
    | ok kept => exact Eviction.prune_eq_ok pruned
    | error cause =>
      cases left : Eviction.pruneOrdinary candidates policy consts with
      | ok kept =>
        obtain ⟨sub, fits⟩ := Eviction.pruneOrdinary_eq_ok left
        exact ⟨sub.trans List.filter_sublist, fits⟩
      | error cause => exact ⟨List.nil_sublist _, Usage.fits_ofCandidates_nil consts⟩

end PreparedProposal

end DataSquare
