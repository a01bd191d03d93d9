import DataSquare.Proofs.Mempool.Kept
import DataSquare.Proofs.Square.Layout

/-!
# Ordinary and blob transactions side by side

How the two kinds of candidates interleave does not matter to eviction by arrival. Totals are sums,
so equally many victims are needed. The blob transactions are evicted from the last one on, whatever
ordinary ones stand between them, so it is the first ones that stay, and the positions of arrival,
which differ with the interleaving, never show.
-/
namespace DataSquare

/-- Items whose keys are not among those of the last items are the first ones. -/
theorem filter_not_contains_drop {α : Type} (key : α → Nat) {items : List α}
    (distinct : (items.map key).Nodup) (count : Nat) :
    (items.filter fun item => !((items.drop count).map key).contains (key item)) =
      items.take count := by
  rw [← List.take_append_drop count items, List.map_append, List.nodup_append] at distinct
  obtain ⟨_, _, apart⟩ := distinct
  have first : (items.take count).filter
      (fun item => !((items.drop count).map key).contains (key item)) = items.take count := by
    apply List.filter_eq_self.mpr
    intro item member
    rw [Bool.not_eq_true', Bool.eq_false_iff, ne_eq, List.contains_iff_mem]
    intro later
    exact apart _ (List.mem_map_of_mem member) _ later rfl
  have last : (items.drop count).filter
      (fun item => !((items.drop count).map key).contains (key item)) = [] := by
    apply List.filter_eq_nil_iff.mpr
    intro item member
    rw [Bool.not_eq_true', Bool.not_eq_false, List.contains_iff_mem]
    exact List.mem_map_of_mem member
  have parts := congrArg (List.filter fun item => !((items.drop count).map key).contains (key item))
    (List.take_append_drop count items)
  rw [List.filter_append, first, last, List.append_nil] at parts
  exact parts.symm

namespace Candidate

/-- Whether two lists of candidates hold the same ordinary ones and the same blob transactions, in
the order of each kind. -/
structure SameKinds (left right : List Candidate) : Prop where
  /-- The ordinary transactions are the same. -/
  ordinary : left.filterMap ordinary? = right.filterMap ordinary?
  /-- The blob transactions are the same. -/
  paid : left.filterMap blob? = right.filterMap blob?

/-- The candidates that pay for blobs are the blob transactions. -/
theorem filter_paysForBlobs (candidates : List Candidate) :
    candidates.filter paysForBlobs = (candidates.filterMap blob?).map .blob := by
  induction candidates with
  | nil => rfl
  | cons candidate rest ih =>
    cases candidate with
    | ordinary tx => exact ih
    | blob content => exact congrArg (Candidate.blob content :: ·) ih

/-- The candidates that do not are the ordinary transactions. -/
theorem ordinary_eq_map (candidates : List Candidate) :
    Eviction.ordinary candidates = (candidates.filterMap ordinary?).map .ordinary := by
  induction candidates with
  | nil => rfl
  | cons candidate rest ih =>
    cases candidate with
    | ordinary tx => exact congrArg (Candidate.ordinary tx :: ·) ih
    | blob content => exact ih

/-- The blob transactions among those that pay for blobs are all of them. -/
theorem filterMap_blob_filter (candidates : List Candidate) :
    (candidates.filter paysForBlobs).filterMap blob? = candidates.filterMap blob? := by
  rw [filter_paysForBlobs, List.filterMap_map]
  exact List.filterMap_some

/-- Candidates of the same parts hold the same of both kinds. -/
theorem sameKinds_of_parts {left right : List Candidate}
    (ordinary : Eviction.ordinary left = Eviction.ordinary right)
    (paid : left.filter paysForBlobs = right.filter paysForBlobs) : SameKinds left right := by
  constructor
  · rw [← Eviction.filterMap_ordinary left, ordinary, Eviction.filterMap_ordinary]
  · rw [← filterMap_blob_filter left, paid, filterMap_blob_filter]

namespace SameKinds

variable {left right : List Candidate} (same : SameKinds left right)
include same

/-- The ordinary candidates are the same. -/
theorem ordinary_eq : Eviction.ordinary left = Eviction.ordinary right := by
  rw [ordinary_eq_map, ordinary_eq_map, same.ordinary]

/-- The candidates that pay for blobs are the same. -/
theorem filter_eq : left.filter paysForBlobs = right.filter paysForBlobs := by
  rw [filter_paysForBlobs, filter_paysForBlobs, same.paid]

/-- The candidates are the same, in some order. -/
theorem perm : left.Perm right := by
  have front := (List.filter_append_perm paysForBlobs left).symm
  have back := List.filter_append_perm paysForBlobs right
  rw [← same.filter_eq] at back
  have rest : left.filter (fun one => !paysForBlobs one) =
      right.filter fun one => !paysForBlobs one := same.ordinary_eq
  rw [← rest] at back
  exact front.trans back

/-- The totals are the same. -/
theorem usage_eq : Usage.ofCandidates left = Usage.ofCandidates right := by
  have equal : ∀ part : Candidate → Nat, (left.map part).sum = (right.map part).sum :=
    fun part => (same.perm.map part).sum_eq
  rw [Usage.ofCandidates_eq, Usage.ofCandidates_eq]
  simp only [equal]

end SameKinds

end Candidate

namespace Eviction

open Candidate (SameKinds)

/-- By arrival the last candidate is the first to be evicted. -/
theorem order_arrival {items : List Prioritized}
    (increasing : items.Pairwise fun left right => left.arrival < right.arrival) :
    order .arrival items = items.reverse := by
  have rank : (fun left right => PriorityPolicy.arrival right left != .gt) =
      fun left right : Prioritized => decide (right.arrival ≤ left.arrival) := by
    funext left right
    rw [PriorityPolicy.arrival, Bool.eq_iff_iff, bne_iff_ne, Nat.compare_ne_gt, decide_eq_true_eq]
  have distinct : (items.map Prioritized.arrival).Nodup :=
    List.pairwise_map.mpr (increasing.imp Nat.ne_of_lt)
  have backwards : items.reverse.Pairwise fun left right => right.arrival ≤ left.arrival :=
    List.pairwise_reverse.mpr (increasing.imp Nat.le_of_lt)
  have sorted : (items.mergeSort fun left right => decide (right.arrival ≤ left.arrival)).Pairwise
      fun left right => right.arrival ≤ left.arrival := by
    apply pairwise_mergeSort
    · exact fun low middle high first second => Nat.le_trans second first
    · exact fun left right => Nat.le_total right.arrival left.arrival
  rw [order, rank]
  apply List.Perm.eq_of_pairwise _ sorted backwards
  · exact (List.mergeSort_perm items _).trans (List.reverse_perm items).symm
  · intro one other memberOne memberOther below above
    apply List.inj_on_of_nodup_map distinct
    · exact (List.mergeSort_perm items _).subset memberOne
    · exact List.mem_reverse.mp memberOther
    · exact Nat.le_antisymm above below

/-- The blob transactions are evicted from the last one on. -/
theorem blobOrder_arrival (candidates : List Candidate) : blobOrder .arrival candidates =
    ((prioritize candidates).filter fun one => one.candidate.paysForBlobs).reverse :=
  order_arrival ((pairwise_prioritize candidates).filter _)

/-- As many victims are needed for the same candidates in the same order, whatever their
positions. -/
theorem victims_length_eq {consts : AppConsts} {usage : Usage} {left right : List Prioritized}
    (same : left.map Prioritized.candidate = right.map Prioritized.candidate) :
    (victims consts usage left).map List.length = (victims consts usage right).map List.length := by
  induction left generalizing usage right with
  | nil =>
    rw [List.map_nil, eq_comm, List.map_eq_nil_iff] at same
    rw [same]
  | cons victim rest ih =>
    cases right with
    | nil => contradiction
    | cons other later =>
      rw [List.map_cons, List.map_cons, List.cons.injEq] at same
      have tails : (victims consts (usage.remove victim.candidate) rest).map List.length =
          (victims consts (usage.remove victim.candidate) later).map List.length := ih same.2
      rw [victims, victims, ← same.1]
      split
      · rfl
      · rw [Option.map_map, Option.map_map]
        have longer := congrArg (Option.map (· + 1)) tails
        rw [Option.map_map, Option.map_map] at longer
        exact longer

/-- The first blob transactions survive when the last ones are evicted. -/
theorem filter_survivors {candidates : List Candidate} {evicted : List Prioritized}
    (front : evicted <+: blobOrder .arrival candidates) :
    (survivors candidates evicted).filter Candidate.paysForBlobs =
      (candidates.filter Candidate.paysForBlobs).take
        ((candidates.filter Candidate.paysForBlobs).length - evicted.length) := by
  let blobs := (prioritize candidates).filter fun one => one.candidate.paysForBlobs
  have listed : blobs.map Prioritized.candidate = candidates.filter Candidate.paysForBlobs :=
    map_candidate_filter_prioritize Candidate.paysForBlobs candidates
  have distinct : (blobs.map Prioritized.arrival).Nodup :=
    List.pairwise_map.mpr (((pairwise_prioritize candidates).filter _).imp Nat.ne_of_lt)
  have out : evicted = (blobs.drop (blobs.length - evicted.length)).reverse := by
    rw [blobOrder_arrival, List.prefix_iff_eq_take, List.take_reverse] at front
    exact front
  have last : ∀ one : Prioritized, (evicted.map Prioritized.arrival).contains one.arrival =
      ((blobs.drop (blobs.length - evicted.length)).map Prioritized.arrival).contains
        one.arrival := by
    intro one
    conv_lhs => rw [out, List.map_reverse, List.contains_reverse]
  calc (survivors candidates evicted).filter Candidate.paysForBlobs
    _ = (((prioritize candidates).filter fun one =>
          !(evicted.map Prioritized.arrival).contains one.arrival).filter fun one =>
            one.candidate.paysForBlobs).map Prioritized.candidate := List.filter_map
    _ = (blobs.filter fun one =>
          !(evicted.map Prioritized.arrival).contains one.arrival).map Prioritized.candidate := by
        simp only [blobs, List.filter_filter, Bool.and_comm]
    _ = (blobs.take (blobs.length - evicted.length)).map Prioritized.candidate := by
        simp only [last, filter_not_contains_drop Prioritized.arrival distinct]
    _ = _ := by rw [List.map_take, listed, ← listed, List.length_map]

/-- What is left after evicting blob transactions is the same of both kinds. -/
theorem sameKinds_of_prune {consts : AppConsts} {left right kept others : List Candidate}
    (same : SameKinds left right) (pruned : prune left .arrival consts = .ok kept)
    (prunedOthers : prune right .arrival consts = .ok others) : SameKinds kept others := by
  apply Candidate.sameKinds_of_parts
  · rw [ordinary_of_prune pruned, ordinary_of_prune prunedOthers, same.ordinary_eq]
  · have order : (blobOrder .arrival left).map Prioritized.candidate =
        (blobOrder .arrival right).map Prioritized.candidate := by
      rw [blobOrder_arrival, blobOrder_arrival, List.map_reverse, List.map_reverse,
        map_candidate_filter_prioritize, map_candidate_filter_prioritize, same.filter_eq]
    have count : (victims consts (Usage.ofCandidates left) (blobOrder .arrival left)).map
        List.length = (victims consts (Usage.ofCandidates left) (blobOrder .arrival right)).map
          List.length := victims_length_eq order
    obtain ⟨_, evicted, found, rfl⟩ := prune_iff_victims.mp pruned
    obtain ⟨_, out, again, rfl⟩ := prune_iff_victims.mp prunedOthers
    rw [← same.usage_eq] at again
    rw [found, again] at count
    have number : evicted.length = out.length := Option.some.inj count
    rw [filter_survivors (victims_eq_some found).1, filter_survivors (victims_eq_some again).1,
      same.filter_eq, number]

/-- What is left after evicting ordinary transactions is the same. -/
theorem pruneOrdinary_eq {consts : AppConsts} {left right : List Candidate}
    (same : SameKinds left right) (policy : PriorityPolicy) :
    pruneOrdinary left policy consts = pruneOrdinary right policy consts := by
  rw [pruneOrdinary, pruneOrdinary, same.ordinary_eq]

end Eviction

/-- A proposer goes on with the same candidates of both kinds. -/
theorem PreparedProposal.sameKinds_fit {left right : List Candidate}
    (same : Candidate.SameKinds left right) (consts : AppConsts) :
    Candidate.SameKinds (fit left .arrival consts) (fit right .arrival consts) := by
  have estimates : Estimate.ofCandidates left consts = Estimate.ofCandidates right consts := by
    rw [Estimate.ofCandidates, Estimate.ofCandidates, same.usage_eq]
  have prunes : (∃ kept, Eviction.prune left .arrival consts = .ok kept) ↔
      ∃ kept, Eviction.prune right .arrival consts = .ok kept := by
    rw [Eviction.exists_prune_iff, Eviction.exists_prune_iff, same.ordinary_eq]
  rw [fit, fit, estimates]
  cases Estimate.ofCandidates right consts with
  | ok estimate => exact same
  | error cause =>
    cases first : Eviction.prune left .arrival consts with
    | ok kept =>
      obtain ⟨others, second⟩ := prunes.mp ⟨kept, first⟩
      rw [second]
      exact Eviction.sameKinds_of_prune same first second
    | error cause =>
      cases second : Eviction.prune right .arrival consts with
      | ok others =>
        obtain ⟨kept, again⟩ := prunes.mpr ⟨others, second⟩
        rw [first] at again
        contradiction
      | error cause =>
        dsimp only
        rw [Eviction.pruneOrdinary_eq same]
        exact ⟨rfl, rfl⟩

end DataSquare
