import DataSquare.Proofs.Mempool.Kept
import DataSquare.Proofs.Square.Stable

/-!
# The shortest front of victims

Candidates are evicted from the front of one order, by priority and then by arrival, and only as
many as it takes until the others fit. On the way the running totals are those of the candidates
that are still there: every victim is taken out of totals that it is part of, so the subtractions
that stop at zero never stop.
-/
namespace DataSquare

namespace PriorityPolicy

/-- Comparing numbers ranks candidates. -/
theorem transCmp_of_key (key : Prioritized → Nat) :
    Std.TransCmp fun left right => compare (key left) (key right) :=
  inferInstanceAs (Std.TransCmp (compareOn key))

/-- Comparing them the other way round does too. -/
theorem transCmp_of_reversed_key (key : Prioritized → Nat) :
    Std.TransCmp fun left right => compare (key right) (key left) :=
  have := transCmp_of_key key
  Std.TransCmp.opposite

/-- Every policy with a name ranks candidates. -/
theorem transCmp_of_ofName {name : String} {policy : PriorityPolicy}
    (named : ofName? name = some policy) : Std.TransCmp policy := by
  unfold ofName? at named
  split at named
  · obtain rfl := Option.some.inj named
    exact transCmp_of_key Prioritized.arrival
  · obtain rfl := Option.some.inj named
    exact transCmp_of_reversed_key Prioritized.arrival
  · obtain rfl := Option.some.inj named
    exact transCmp_of_key fun one => one.candidate.bytes.length
  · obtain rfl := Option.some.inj named
    exact transCmp_of_reversed_key fun one => one.candidate.bytes.length
  · obtain rfl := Option.some.inj named
    exact transCmp_of_key fun _ => 0
  · contradiction

section Ranked

variable {policy : PriorityPolicy} [Std.TransCmp policy]

/-- Not going after somebody is transitive. -/
theorem ne_gt_trans (low middle high : Prioritized) (first : policy middle low ≠ .gt)
    (second : policy high middle ≠ .gt) : policy high low ≠ .gt := by
  have firstLE := Ordering.ne_gt_iff_isLE.mp first
  have secondLE := Ordering.ne_gt_iff_isLE.mp second
  exact Ordering.ne_gt_iff_isLE.mpr (Std.TransCmp.isLE_trans secondLE firstLE)

/-- Two candidates are of one priority when neither goes after the other. -/
theorem eq_iff_ne_gt {left right : Prioritized} :
    policy left right = .eq ↔ policy right left ≠ .gt ∧ policy left right ≠ .gt := by
  rw [ne_eq, Std.OrientedCmp.gt_iff_lt]
  cases policy left right <;> decide

/-- Of two candidates one does not go after the other. -/
theorem ne_gt_total (left right : Prioritized) :
    policy right left ≠ .gt ∨ policy left right ≠ .gt := by
  rw [ne_eq, Std.OrientedCmp.gt_iff_lt]
  cases policy left right <;> decide

end Ranked

end PriorityPolicy

namespace Usage

/-- Whether totals are not below what a candidate takes, so that none of them stops at zero when it
is taken out. -/
structure Includes (usage : Usage) (candidate : Candidate) : Prop where
  /-- The bytes of ordinary transactions are not below. -/
  txBytes : (contribution candidate).txBytes ≤ usage.txBytes
  /-- The bytes of index wrappers are not below. -/
  wrapperBytes : (contribution candidate).wrapperBytes ≤ usage.wrapperBytes
  /-- The shares of blobs are not below. -/
  blobShares : (contribution candidate).blobShares ≤ usage.blobShares

/-- The totals of candidates are not below what one of them takes. -/
theorem includes_of_mem {candidates : List Candidate} {candidate : Candidate}
    (member : candidate ∈ candidates) : (ofCandidates candidates).Includes candidate := by
  have part : ∀ size : Candidate → Nat, size candidate ≤ (candidates.map size).sum :=
    fun size => List.le_sum_of_mem (List.mem_map_of_mem member)
  rw [ofCandidates_eq]
  exact ⟨part fun one => (contribution one).txBytes,
    part fun one => (contribution one).wrapperBytes,
    part fun one => (contribution one).blobShares⟩

/-- The totals after each of several changes are those after the changes up to it. -/
theorem running_eq_map (change : Usage → Candidate → Usage) (usage : Usage)
    (candidates : List Candidate) : running change usage candidates =
      (List.range candidates.length).map fun count =>
        (candidates.take (count + 1)).foldl change usage := by
  induction candidates generalizing usage with
  | nil => rfl
  | cons candidate rest ih =>
    rw [running, ih, List.length_cons, List.range_succ_eq_map, List.map_cons, List.map_map]
    rfl

end Usage

namespace Eviction

variable {policy : PriorityPolicy} {consts : AppConsts} {candidates : List Candidate}
  {order : List Prioritized}

/-- Whether candidates stand in the order in which those of a group are evicted: from the lowest to
the highest priority, and those of one priority as in the group. -/
structure IsEvictionOrder (policy : PriorityPolicy) (group order : List Prioritized) : Prop where
  /-- Each candidate of the group is there once. -/
  perm : order.Perm group
  /-- Nobody stands in front of somebody of a lower priority. -/
  ascending : order.Pairwise fun left right => policy right left ≠ .gt
  /-- Those of one priority stand as in the group. -/
  stable : ∀ one, (order.filter fun other => policy one other == .eq) =
    group.filter fun other => policy one other == .eq

section Ranked

variable [Std.TransCmp policy]

/-- The candidates of one priority are a class of those that do not go after each other. -/
theorem filter_priority (one : Prioritized) (items : List Prioritized) :
    (items.filter fun other => policy one other == .eq) =
      classOf (fun left right => policy right left ≠ .gt) one items := by
  apply List.filter_congr
  intro other _
  rw [Bool.eq_iff_iff, beq_iff_eq, Bool.and_eq_true, decide_eq_true_eq, decide_eq_true_eq]
  exact PriorityPolicy.eq_iff_ne_gt

/-- A group has one order of eviction. -/
theorem isEvictionOrder_iff {group : List Prioritized} :
    IsEvictionOrder policy group order ↔ order = Eviction.order policy group := by
  have trans : ∀ low middle high : Prioritized, policy middle low ≠ .gt →
      policy high middle ≠ .gt → policy high low ≠ .gt := PriorityPolicy.ne_gt_trans
  have total : ∀ left right : Prioritized, policy right left ≠ .gt ∨ policy left right ≠ .gt :=
    PriorityPolicy.ne_gt_total
  have sorted : Eviction.order policy group =
      group.mergeSort fun left right => decide (policy right left ≠ .gt) := by
    rw [Eviction.order]
    congr 1
    funext left right
    rw [Bool.eq_iff_iff, bne_iff_ne, decide_eq_true_eq]
  have ascending : (Eviction.order policy group).Pairwise fun left right =>
      policy right left ≠ .gt := by
    rw [sorted]
    exact pairwise_mergeSort trans total group
  have stable : ∀ one, classOf (fun left right => policy right left ≠ .gt) one
      (Eviction.order policy group) =
        classOf (fun left right => policy right left ≠ .gt) one group := by
    intro one
    rw [sorted]
    exact classOf_mergeSort trans total one group
  constructor
  · intro evicts
    -- Both lists are sorted, and a sorted list is determined by the candidates of each priority.
    apply eq_of_classOf_eq (fun one => (total one one).elim id id) evicts.ascending ascending
    intro one
    rw [stable, ← filter_priority, ← filter_priority]
    exact evicts.stable one
  · rintro rfl
    refine ⟨order_perm policy group, ascending, fun one => ?_⟩
    rw [filter_priority, filter_priority]
    exact stable one

end Ranked

/-- Whether the others fit when the first candidates of an order are evicted. -/
def FitsWithout (consts : AppConsts) (candidates : List Candidate) (order : List Prioritized)
    (count : Nat) : Prop :=
  count ≤ order.length ∧
    (Usage.ofCandidates (survivors candidates (order.take count))).fits consts = true

/-- Whether totals from which an order of candidates is taken out, one after the other, are always
those of the candidates that are still there, and never stop at zero. -/
structure ExactTotals (candidates : List Candidate) (order : List Prioritized) : Prop where
  /-- After each victim the totals are those of the survivors. -/
  running : Usage.running .remove (Usage.ofCandidates candidates)
      (order.map Prioritized.candidate) =
    (List.range order.length).map fun count =>
      Usage.ofCandidates (survivors candidates (order.take (count + 1)))
  /-- Before each victim the totals are not below what it takes. -/
  includes : ∀ count (inside : count < order.length),
    (Usage.ofCandidates (survivors candidates (order.take count))).Includes order[count].candidate

section Front

variable (all : order.Subperm (prioritize candidates))
include all

/-- The first candidates of an order are some of all candidates. -/
theorem subperm_take (count : Nat) : (order.take count).Subperm (prioritize candidates) :=
  (List.take_sublist count order).subperm.trans all

/-- Taking the first candidates of an order out leaves the totals of the others. -/
theorem foldl_remove_take (count : Nat) :
    ((order.take count).map Prioritized.candidate).foldl Usage.remove
      (Usage.ofCandidates candidates) =
        Usage.ofCandidates (survivors candidates (order.take count)) :=
  Usage.foldl_remove_of_perm (perm_survivors (subperm_take all count))

/-- The survivors of a front are the next victim and the survivors of the front with it. -/
theorem perm_survivors_take {count : Nat} (inside : count < order.length) :
    (survivors candidates (order.take count)).Perm
      (order[count].candidate :: survivors candidates (order.take (count + 1))) := by
  have before := perm_survivors (subperm_take all count)
  have after := perm_survivors (subperm_take all (count + 1))
  have front : (order.take (count + 1)).map Prioritized.candidate =
      (order.take count).map Prioritized.candidate ++ [order[count].candidate] := by
    rw [List.take_succ_eq_append_getElem inside, List.map_append]
    rfl
  rw [front, List.append_assoc] at after
  -- Both fronts with their survivors are all candidates, so the common victims cancel.
  exact (List.perm_append_left_iff _).mp (before.symm.trans after)

/-- Evicting the first candidates of an order is enough when the others fit. -/
theorem enough_iff_fitsWithout {count : Nat} :
    Enough consts (Usage.ofCandidates candidates) order count ↔
      FitsWithout consts candidates order count := by
  rw [Enough, foldl_remove_take all, FitsWithout]

/-- The victims are the shortest front without which the others fit. -/
theorem victims_iff_fitsWithout {evicted : List Prioritized} :
    victims consts (Usage.ofCandidates candidates) order = some evicted ↔
      ∃ count, IsLeast {count | FitsWithout consts candidates order count} count ∧
        evicted = order.take count := by
  simp only [victims_eq_some_iff, enough_iff_fitsWithout all]

/-- Evicting one candidate after the other keeps the totals of those that are still there. -/
theorem exactTotals : ExactTotals candidates order := by
  constructor
  · rw [Usage.running_eq_map, List.length_map]
    apply List.map_congr_left
    intro count _
    rw [← List.map_take, foldl_remove_take all]
  · intro count inside
    have there := (perm_survivors_take all inside).mem_iff.mpr List.mem_cons_self
    exact Usage.includes_of_mem there

end Front

section Counted

variable (small : consts.maxShares < UInt64.size)
include small

/-- Evicting blob transactions fails exactly when the ordinary candidates alone do not fit. -/
theorem prune_eq_error (policy : PriorityPolicy) :
    prune candidates policy consts = .error .ordinaryExceedCapacity ↔
      ¬ (Usage.ofCandidates (ordinary candidates)).fits consts = true := by
  have enough : (∃ kept, prune candidates policy consts = .ok kept) ↔
      (Usage.ofCandidates (ordinary candidates)).fits consts = true :=
    (exists_prune_iff policy).trans (and_iff_right small)
  rw [← enough, prune, evictUntilFits_of_lt small]
  cases victims consts (Usage.ofCandidates candidates) (blobOrder policy candidates) with
  | none => simp
  | some evicted => simp

/-- What is left after evicting blob transactions are the survivors of their shortest front. -/
theorem prune_eq_ok_iff (policy : PriorityPolicy) {kept : List Candidate} :
    prune candidates policy consts = .ok kept ↔
      ∃ count, IsLeast {count | FitsWithout consts candidates (blobOrder policy candidates) count}
          count ∧
        kept = survivors candidates ((blobOrder policy candidates).take count) := by
  rw [prune_iff_victims, and_iff_right small]
  simp only [victims_iff_fitsWithout (subperm_blobOrder policy candidates)]
  constructor
  · rintro ⟨_, ⟨count, least, rfl⟩, rfl⟩
    exact ⟨count, least, rfl⟩
  · rintro ⟨count, least, rfl⟩
    exact ⟨_, ⟨count, least, rfl⟩, rfl⟩

/-- What is left after evicting ordinary candidates are the survivors of their shortest front. -/
theorem pruneOrdinary_eq_survivors (candidates : List Candidate) (policy : PriorityPolicy) :
    ∃ count, IsLeast {count | FitsWithout consts (ordinary candidates)
        (Eviction.order policy (prioritize (ordinary candidates))) count} count ∧
      pruneOrdinary candidates policy consts = .ok (survivors (ordinary candidates)
        ((Eviction.order policy (prioritize (ordinary candidates))).take count)) := by
  have same := order_perm policy (prioritize (ordinary candidates))
  have listed := (same.map Prioritized.candidate).symm
  rw [map_candidate_prioritize, ← List.append_nil (List.map _ _)] at listed
  have last := Usage.fits_ofCandidates_nil consts
  rw [← Usage.foldl_remove_of_perm listed] at last
  obtain ⟨evicted, found⟩ := exists_victims last
  obtain ⟨count, least, rfl⟩ := (victims_iff_fitsWithout same.subperm).mp found
  refine ⟨count, least, ?_⟩
  rw [pruneOrdinary, evictUntilFits_of_lt small, found]
  rfl

end Counted

/-- Under a policy that ranks candidates there is one order of eviction for the blob transactions
and one for the ordinary candidates, and what is evicted is the shortest front of it without which
the others fit. Only ordinary candidates that do not fit alone make the eviction of blob
transactions fail. The running totals are those of the candidates that are still there. The number
of shares of the largest square has to fit 64 bits. -/
theorem shortest_fronts (policy : PriorityPolicy) [Std.TransCmp policy]
    (candidates : List Candidate) {consts : AppConsts} (small : consts.maxShares < UInt64.size) :
    (∃! order, IsEvictionOrder policy
      ((prioritize candidates).filter fun one => one.candidate.paysForBlobs) order) ∧
    (∃! order, IsEvictionOrder policy (prioritize (ordinary candidates)) order) ∧
    (prune candidates policy consts = .error .ordinaryExceedCapacity ↔
      ¬ (Usage.ofCandidates (ordinary candidates)).fits consts = true) ∧
    (∀ order, IsEvictionOrder policy
        ((prioritize candidates).filter fun one => one.candidate.paysForBlobs) order →
      ExactTotals candidates order ∧
      ∀ kept, prune candidates policy consts = .ok kept ↔
        ∃ count, IsLeast {count | FitsWithout consts candidates order count} count ∧
          kept = survivors candidates (order.take count)) ∧
    (∀ order, IsEvictionOrder policy (prioritize (ordinary candidates)) order →
      ExactTotals (ordinary candidates) order ∧
      ∃ count, IsLeast {count | FitsWithout consts (ordinary candidates) order count} count ∧
        pruneOrdinary candidates policy consts =
          .ok (survivors (ordinary candidates) (order.take count))) ∧
    ∃ kept, pruneOrdinary candidates policy consts = .ok kept ∧
      (Usage.ofCandidates kept).fits consts = true := by
  have one : ∀ group : List Prioritized, ∃! order, IsEvictionOrder policy group order :=
    fun group => ⟨Eviction.order policy group, isEvictionOrder_iff.mpr rfl,
      fun other evicts => isEvictionOrder_iff.mp evicts⟩
  refine ⟨one _, one _, prune_eq_error small policy, ?_, ?_, ?_⟩
  · intro order evicts
    obtain rfl := isEvictionOrder_iff.mp evicts
    exact ⟨exactTotals (subperm_blobOrder policy candidates), fun kept => prune_eq_ok_iff small policy⟩
  · intro order evicts
    obtain rfl := isEvictionOrder_iff.mp evicts
    exact ⟨exactTotals (order_perm policy _).subperm,
      pruneOrdinary_eq_survivors small candidates policy⟩
  · obtain ⟨_, _, left⟩ := pruneOrdinary_eq_survivors small candidates policy
    exact ⟨_, left, (pruneOrdinary_eq_ok left).2⟩

/-- With a width of 2³² the number of shares of the largest square does not fit 64 bits. Nothing is
left then of a transaction that takes one share, neither after evicting blob transactions nor after
evicting ordinary ones. -/
theorem prune_of_wide_square :
    (Usage.ofCandidates (ordinary [.ordinary [0]])).shares = 1 ∧
      prune [.ordinary [0]] .arrival { AppVersion.v3.consts with maxSquareSize := 2 ^ 32 } =
        .error .overflow ∧
      pruneOrdinary [.ordinary [0]] .arrival
        { AppVersion.v3.consts with maxSquareSize := 2 ^ 32 } = .error .overflow := by
  have usage : Usage.ofCandidates [.ordinary [0]] = ⟨2, 0, 0⟩ := by
    simp (disch := decide) only [Usage.ofCandidates_eq, List.map_cons, List.map_nil,
      Usage.contribution, Usage.delimitedLength_of_lt]
    decide
  have large : UInt64.size ≤
      ({ AppVersion.v3.consts with maxSquareSize := 2 ^ 32 } : AppConsts).maxShares := by decide
  refine ⟨?_, ?_, ?_⟩
  · change (Usage.ofCandidates [.ordinary [0]]).shares = 1
    rw [usage]
    decide
  · rw [prune, evictUntilFits_of_le large]
  · rw [pruneOrdinary, evictUntilFits_of_le large]
    rfl

/-- A candidate that pays for one blob of a share. -/
def oneShare (tx : Bytes) : Candidate :=
  .blob ⟨tx, ⟨.replicate 20 0, [], [], [], []⟩, [⟨Namespace.lowestUser, [0], 0⟩]⟩

/-- When shorter transactions go first, the first of the two longer ones is evicted from a square of
four shares, and one victim is enough. -/
theorem shortest_fronts_of_tie :
    prune [.ordinary [0], oneShare [1], oneShare [2, 2], oneShare [3, 3]] .shortest
        { AppVersion.v3.consts with maxSquareSize := 2 } =
      .ok [.ordinary [0], oneShare [1], oneShare [3, 3]] := by
  have named : PriorityPolicy.ofName? "shortest" = some .shortest := rfl
  have ranked := PriorityPolicy.transCmp_of_ofName named
  have evicts : IsEvictionOrder .shortest
      ((prioritize [.ordinary [0], oneShare [1], oneShare [2, 2], oneShare [3, 3]]).filter
        fun one => one.candidate.paysForBlobs)
      [⟨2, oneShare [2, 2]⟩, ⟨3, oneShare [3, 3]⟩, ⟨1, oneShare [1]⟩] := by
    refine ⟨by decide, by decide, fun one => ?_⟩
    have equal : ∀ arrival tx, (PriorityPolicy.shortest one ⟨arrival, oneShare tx⟩ == .eq) =
        decide (one.candidate.bytes.length = tx.length) := by
      intro arrival tx
      rw [Bool.eq_iff_iff, beq_iff_eq, decide_eq_true_iff]
      exact Nat.compare_eq_eq
    change _ = ([⟨1, oneShare [1]⟩, ⟨2, oneShare [2, 2]⟩, ⟨3, oneShare [3, 3]⟩] :
      List Prioritized).filter _
    simp only [List.filter_cons, equal]
    by_cases short : one.candidate.bytes.length = 1
    · simp [short]
    · simp [short]
  have whole : Usage.ofCandidates [.ordinary [0], oneShare [1], oneShare [2, 2], oneShare [3, 3]] =
      ⟨2, 80, 3⟩ := by
    simp (disch := decide) only [Usage.ofCandidates_eq, List.map_cons, List.map_nil, oneShare,
      Usage.contribution, BlobCandidate.wrappedLength, Usage.delimitedLength_of_lt]
    decide
  have part : Usage.ofCandidates [.ordinary [0], oneShare [1], oneShare [3, 3]] = ⟨2, 53, 2⟩ := by
    simp (disch := decide) only [Usage.ofCandidates_eq, List.map_cons, List.map_nil, oneShare,
      Usage.contribution, BlobCandidate.wrappedLength, Usage.delimitedLength_of_lt]
    decide
  obtain ⟨_, _, _, fronts, _⟩ := shortest_fronts .shortest
    [.ordinary [0], oneShare [1], oneShare [2, 2], oneShare [3, 3]]
    (show ({ AppVersion.v3.consts with maxSquareSize := 2 } : AppConsts).maxShares < UInt64.size by
      decide)
  refine ((fronts _ evicts).2 _).mpr ⟨1, ⟨⟨by decide, ?_⟩, ?_⟩, by decide⟩
  · change (Usage.ofCandidates [.ordinary [0], oneShare [1], oneShare [3, 3]]).fits _ = true
    rw [part]
    decide
  · rintro count ⟨_, fits⟩
    by_contra zero
    obtain rfl : count = 0 := by omega
    change (Usage.ofCandidates [.ordinary [0], oneShare [1], oneShare [2, 2],
      oneShare [3, 3]]).fits _ = true at fits
    rw [whole] at fits
    exact absurd fits (by decide)

end Eviction

end DataSquare
