import DataSquare.Proofs.Square.Commitment
import DataSquare.Proofs.Square.Trace

/-!
# What a layout holds

A layout holds every candidate, as one that is placed or as one that is removed, and which of the
two follows from the visits of the blobs. The placed blobs are stacked in the order of the visits,
so their share indexes tell that order, however the transactions lie. Only when a first place behind
the shares that are kept free needs more than 64 bits may there be no layout.
-/
namespace DataSquare

namespace Layout

/-- The blobs of the placed transactions with their share indexes, transaction by transaction. -/
def places (layout : Layout) : List (Nat × Blob) :=
  layout.placed.flatMap fun placed =>
    (placed.shareIndexes.map UInt32.toNat).zip placed.candidate.blobs

/-- Whether some blob of a transaction does not end in the square when it is visited. -/
def overflows (visits : List Visit) (tx : Nat) : Bool :=
  visits.any fun one => one.slot.tx == tx && one.placement.isOverflow

/-- What a layout holds of the candidates it is made of, with the visits of their blobs. -/
structure Explained (layout : Layout) (candidates : List Candidate) (visits : List Visit) :
    Prop where
  /-- Every blob of a blob transaction is visited once. -/
  visited : (visits.map Visit.slot).Perm (slots (candidates.filterMap Candidate.blob?))
  /-- The visits are in the order of the namespaces, then of the transactions, and then of the blobs
  of one transaction. -/
  order : (visits.map Visit.slot).Pairwise Slot.Before
  /-- Every visit is decided by the visits before it. -/
  traced : Traced layout.squareSize layout.nonReservedStart [] visits
  /-- The ordinary transactions are those of the candidates. -/
  ordinary : layout.ordinary = candidates.filterMap Candidate.ordinary?
  /-- The placed transactions are those of which no blob overflows. -/
  placed : layout.placed.map PlacedTx.candidate =
    ((candidates.filterMap Candidate.blob?).zipIdx.filter fun (_, tx) =>
      !overflows visits tx).map Prod.fst
  /-- The removed transactions are those of which some blob overflows. -/
  removed : layout.removed =
    ((candidates.filterMap Candidate.blob?).zipIdx.filter fun (_, tx) =>
      overflows visits tx).map Prod.fst
  /-- A placed transaction has a share index for each of its blobs. -/
  counts : ∀ placed ∈ layout.placed,
    placed.shareIndexes.length = placed.candidate.blobs.length
  /-- Every placed blob starts at a multiple of its alignment, behind what is reserved, and ends in
  the square. -/
  inside : ∀ entry ∈ layout.places,
    blobAlignment entry.2.shareCount layout.squareSize ∣ entry.1 ∧
      layout.nonReservedStart ≤ entry.1 ∧
      entry.1 + entry.2.shareCount ≤ layout.squareSize * layout.squareSize
  /-- No two placed blobs have a share in common. -/
  apart : layout.places.Pairwise fun left right =>
    left.1 + left.2.shareCount ≤ right.1 ∨ right.1 + right.2.shareCount ≤ left.1
  /-- Sorted by their share indexes, the placed blobs are those of the layout. -/
  sorted : (layout.places.mergeSort fun left right => decide (left.1 ≤ right.1)).map Prod.snd =
    layout.blobs
  /-- The blobs of the layout are those of transactions of which no blob overflows, in the order of
  the visits. -/
  blobs : layout.blobs =
    ((visits.map Visit.slot).filter fun slot => !overflows visits slot.tx).map Slot.blob

/-- A transaction is out exactly when some blob of it overflows. -/
theorem contains_outOf (visits : List Visit) (tx : Nat) :
    (outOf visits).contains tx = overflows visits tx := by
  rw [Bool.eq_iff_iff, List.contains_iff_mem, outOf, overflows, List.any_eq_true, List.mem_map]
  constructor
  · rintro ⟨one, member, rfl⟩
    obtain ⟨inside, full⟩ := List.mem_filter.mp member
    exact ⟨one, inside, by rw [beq_self_eq_true, full]; rfl⟩
  · rintro ⟨one, inside, own⟩
    rw [Bool.and_eq_true, beq_iff_eq] at own
    exact ⟨one, List.mem_filter.mpr ⟨inside, own.2⟩, own.1⟩

section Visits

variable {squareSize nonReservedStart : Nat} {candidates : List BlobCandidate}
  {visits : List Visit}
  (visited : Visited squareSize nonReservedStart [] (visitOrder candidates) visits)
  (ordinary : List Bytes)
include visited

/-- The slots that stay are stacked. -/
theorem Visited.stacked_kept :
    Stacked squareSize nonReservedStart (kept (outOf visits) visits) :=
  visited.stacked.sublist List.filter_sublist

/-- The placed blobs are those of the slots that stay, where these start. -/
theorem Visited.perm_kept :
    (ofVisits squareSize nonReservedStart ordinary candidates visits).places.Perm
      ((kept (outOf visits) visits).map fun entry => (entry.1, entry.2.blob)) := by
  have words : (ofVisits squareSize nonReservedStart ordinary candidates visits).places =
      ((ofVisits squareSize nonReservedStart ordinary candidates visits).placed.flatMap
        fun placed => placed.shareIndexes.zip placed.candidate.blobs).map
          (Prod.map UInt32.toNat id) := by
    rw [places, List.map_flatMap]
    exact List.flatMap_congr fun placed _ => List.zip_map_left
  have starts : ((kept (outOf visits) visits).map fun entry =>
      (UInt32.ofNat entry.1, entry.2.blob)).map (Prod.map UInt32.toNat id) =
        (kept (outOf visits) visits).map fun entry => (entry.1, entry.2.blob) := by
    rw [List.map_map]
    refine List.map_congr_left fun entry member => ?_
    have small := (visited.stacked_kept.of_mem member).2.2.1
    exact Prod.ext (UInt32.toNat_ofNat_of_lt' small) rfl
  rw [words, ← starts]
  exact (visited.perm_places ordinary).map _

/-- The placed blobs are inside the square. -/
theorem Visited.inside_of_mem_places {entry : Nat × Blob}
    (member : entry ∈
      (ofVisits squareSize nonReservedStart ordinary candidates visits).places) :
    blobAlignment entry.2.shareCount squareSize ∣ entry.1 ∧ nonReservedStart ≤ entry.1 ∧
      entry.1 + entry.2.shareCount ≤ squareSize * squareSize := by
  obtain ⟨⟨start, slot⟩, stays, rfl⟩ :=
    List.mem_map.mp ((visited.perm_kept ordinary).mem_iff.mp member)
  obtain ⟨behind, aligned, _, room⟩ := visited.stacked_kept.of_mem stays
  exact ⟨aligned, behind, room⟩

/-- The placed blobs do not overlap. -/
theorem Visited.pairwise_places :
    (ofVisits squareSize nonReservedStart ordinary candidates visits).places.Pairwise
      fun left right =>
        left.1 + left.2.shareCount ≤ right.1 ∨ right.1 + right.2.shareCount ≤ left.1 := by
  have stacked : ((kept (outOf visits) visits).map fun entry =>
      (entry.1, entry.2.blob)).Pairwise fun left right =>
        left.1 + left.2.shareCount ≤ right.1 := by
    rw [List.pairwise_map]
    exact visited.stacked_kept.pairwise_end
  exact ((visited.perm_kept ordinary).pairwise_iff fun {_ _} => Or.symm).mpr
    (stacked.imp Or.inl)

/-- The blob of a slot is one of its transaction. -/
theorem Visited.blob_of_mem_kept {entry : Nat × Slot}
    (member : entry ∈ kept (outOf visits) visits) :
    ∃ candidate ∈ candidates, entry.2.blob ∈ candidate.blobs := by
  have slot := List.mem_map_of_mem (f := Prod.snd) member
  rw [visited.map_snd_kept] at slot
  obtain ⟨candidate, entry, own⟩ := exists_of_mem_visitOrder (List.mem_filter.mp slot).1
  exact ⟨candidate, List.fst_mem_of_mem_zipIdx entry, own⟩

/-- The share indexes tell the order of the blobs when every blob takes a share. -/
theorem Visited.sorted_places
    (filled : ∀ candidate ∈ candidates, ∀ blob ∈ candidate.blobs, blob.data ≠ []) :
    ((ofVisits squareSize nonReservedStart ordinary candidates visits).places.mergeSort
      fun left right => decide (left.1 ≤ right.1)).map Prod.snd =
        (ofVisits squareSize nonReservedStart ordinary candidates visits).blobs := by
  have increasing := visited.stacked_kept.pairwise_start fun entry member => by
    obtain ⟨candidate, inside, own⟩ := visited.blob_of_mem_kept member
    have nonempty := List.length_pos_iff.mpr (filled candidate inside _ own)
    exact sparseSharesNeeded_pos (Nat.ne_of_gt nonempty)
  have firsts : (((kept (outOf visits) visits).map fun entry =>
      (entry.1, entry.2.blob)).map Prod.fst).Pairwise (· < ·) := by
    rw [List.map_map]
    exact increasing
  have starts : ((kept (outOf visits) visits).map fun entry =>
      (entry.1, entry.2.blob)).Pairwise fun left right => left.1 ≤ right.1 :=
    (List.pairwise_map.mp firsts).imp Nat.le_of_lt
  have order := pairwise_mergeSort
    (r := fun left right : Nat × Blob => left.1 ≤ right.1)
    (fun _ _ _ => Nat.le_trans) (fun _ _ => Nat.le_total _ _)
    (ofVisits squareSize nonReservedStart ordinary candidates visits).places
  have perm := (List.mergeSort_perm
    (ofVisits squareSize nonReservedStart ordinary candidates visits).places
    fun left right => decide (left.1 ≤ right.1)).trans (visited.perm_kept ordinary)
  -- No two blobs start at one share, so there is only one order by share indexes.
  have same := perm.eq_of_pairwise (fun left right memLeft memRight first second =>
    List.inj_on_of_nodup_map (firsts.imp Nat.ne_of_lt) (perm.mem_iff.mp memLeft) memRight
      (Nat.le_antisymm first second)) order starts
  rw [same, List.map_map, ofVisits, ← map_blob_kept]
  rfl

/-- The blobs of a layout are those of transactions of which none overflows. -/
theorem Visited.blobs_eq :
    (ofVisits squareSize nonReservedStart ordinary candidates visits).blobs =
      ((visits.map Visit.slot).filter fun slot => !overflows visits slot.tx).map Slot.blob := by
  have stays : (visits.map Visit.slot).filter (fun slot => !overflows visits slot.tx) =
      (kept (outOf visits) visits).map Prod.snd := by
    rw [visited.map_snd_kept, visited.slots_eq]
    exact List.filter_congr fun slot _ => by rw [contains_outOf]
  rw [stays, List.map_map, ofVisits, ← map_blob_kept]
  rfl

end Visits

/-- A layout of candidates whose blobs have data, in a square that is taken, is explained by the
visits of the blobs, whatever is kept free in front. There is one whenever the first multiple of the
alignment of each blob behind what is kept free fits 64 bits. -/
theorem explained_of_finalize {squareSize : Nat} (power : isPowerOfTwo squareSize = true)
    (narrow : squareSize ≤ 128) (nonReservedStart : Nat) (candidates : List Candidate)
    (filled : ∀ candidate ∈ candidates.filterMap Candidate.blob?,
      ∀ blob ∈ candidate.blobs, blob.data ≠ []) :
    (∀ layout, finalize? squareSize nonReservedStart candidates = some layout →
      layout.squareSize = squareSize ∧ layout.nonReservedStart = nonReservedStart ∧
        ∃ visits, layout.Explained candidates visits) ∧
    ((∀ candidate ∈ candidates.filterMap Candidate.blob?, ∀ blob ∈ candidate.blobs,
        ∃ place, firstPlace? squareSize nonReservedStart blob.shareCount = some place) →
      ∃ layout, finalize? squareSize nonReservedStart candidates = some layout) := by
  have positive := pos_of_isPowerOfTwo power
  have cells : squareSize * squareSize < UInt32.size := by
    have bound := Nat.mul_le_mul narrow narrow
    have words : 128 * 128 < UInt32.size := by decide
    omega
  refine ⟨fun layout made => ?_, exists_finalize positive cells⟩
  obtain ⟨visits, found, rfl⟩ := Option.map_eq_some_iff.mp made
  have visited := visited_of_visit positive found
  refine ⟨rfl, rfl, visits, ?_⟩
  exact
    { visited := by
        rw [visited.slots_eq]
        exact List.mergeSort_perm _ _
      order := by
        rw [visited.slots_eq]
        exact before_visitOrder _
      traced := traced_of_visit positive cells found rfl fun _ => Iff.rfl
      ordinary := rfl
      placed := by
        rw [ofVisits, List.map_map]
        exact congrArg _ (List.filter_congr fun entry _ =>
          congrArg not (contains_outOf visits entry.2))
      removed := congrArg _ (List.filter_congr fun entry _ => contains_outOf visits _)
      counts := fun _ => visited.length_shareIndexes _
      inside := fun _ => visited.inside_of_mem_places _
      apart := visited.pairwise_places _
      sorted := visited.sorted_places _ filled
      blobs := visited.blobs_eq _ }

end Layout

/-- A candidate that pays for one share. -/
def BlobCandidate.oneShare : BlobCandidate :=
  ⟨[], ⟨.replicate 20 0, [], [], [], []⟩, [⟨Namespace.lowestUser, [7], 0⟩]⟩

/-- Two candidates that pay for one share each have a layout where there is room for one. -/
theorem Layout.explained_of_finalize_oneShare : ∃ layout visits,
    finalize? 2 3 [.blob .oneShare, .blob .oneShare] = some layout ∧
      layout.squareSize = 2 ∧ layout.nonReservedStart = 3 ∧
      layout.Explained [.blob .oneShare, .blob .oneShare] visits := by
  have blobs : ∀ candidate ∈ [Candidate.blob .oneShare, .blob .oneShare].filterMap Candidate.blob?,
      ∀ blob ∈ candidate.blobs, blob = ⟨Namespace.lowestUser, [7], 0⟩ := by
    intro candidate member blob own
    have one : candidate = .oneShare := by
      rcases List.mem_pair.mp member with same | same
      · exact same
      · exact same
    rw [one] at own
    exact List.mem_singleton.mp own
  obtain ⟨explained, complete⟩ := explained_of_finalize (by decide : isPowerOfTwo 2 = true)
    (by decide) 3 [.blob .oneShare, .blob .oneShare] fun candidate member blob own => by
      rw [blobs candidate member blob own]
      exact List.cons_ne_nil _ _
  obtain ⟨layout, made⟩ := complete fun candidate member blob own => by
    rw [blobs candidate member blob own]
    exact ⟨3, by decide⟩
  obtain ⟨width, start, visits, known⟩ := explained layout made
  exact ⟨layout, visits, made, width, start, known⟩

/-- A candidate that pays for two shares. -/
def BlobCandidate.twoShares : BlobCandidate :=
  ⟨[], ⟨.replicate 20 0, [], [], [], []⟩, [⟨Namespace.lowestUser, List.replicate 700 0, 0⟩]⟩

/-- When all shares up to the last number of 64 bits are kept free, a blob of two shares has no first
place, and there is no layout, not even one without the blob. -/
theorem Layout.finalize?_of_last_share :
    (∀ blob ∈ BlobCandidate.twoShares.blobs, blob.data ≠ []) ∧
      finalize? 4 (2 ^ 64 - 1) [.blob .twoShares] = none := by
  have two : (⟨Namespace.lowestUser, List.replicate 700 0, 0⟩ : Blob).shareCount = 2 := by
    rw [Blob.shareCount, Blob.size, List.length_replicate]
    decide
  have order : visitOrder ([Candidate.blob .twoShares].filterMap Candidate.blob?) =
      [⟨0, 0, ⟨Namespace.lowestUser, List.replicate 700 0, 0⟩⟩] := List.mergeSort_singleton _
  have beyond : firstPlace? 4 (2 ^ 64 - 1) 2 = none := by decide
  constructor
  · intro blob own
    rw [List.mem_singleton.mp own]
    exact List.cons_ne_nil _ _
  · rw [finalize?, visits?, order]
    simp only [visit, two, beyond, List.contains_nil, Bool.false_eq_true, if_false,
      Option.bind_eq_bind, Option.bind_none, Option.map_none]

end DataSquare
