import DataSquare.Proofs.Square.Layout

/-!
# How blobs find their places

The cursor and the transactions that are out are all that later visits know of earlier ones, so
every visit is decided by the visits before it. The order of the visits is settled by stability:
slots of one namespace come in the order in which they were listed.
-/
namespace DataSquare

/-- Sorting keeps the order of those entries that are all related to each other. -/
theorem filter_mergeSort {α : Type} {r : α → α → Prop} [DecidableRel r]
    (trans : ∀ low middle high, r low middle → r middle high → r low high)
    (total : ∀ left right, r left right ∨ r right left) {keep : α → Bool}
    (related : ∀ left right, keep left = true → keep right = true → r left right)
    (items : List α) :
    (items.mergeSort fun left right => decide (r left right)).filter keep = items.filter keep := by
  have passes : ∀ item ∈ items.filter keep, keep item = true :=
    fun item member => (List.mem_filter.mp member).2
  have ordered : (items.filter keep).Pairwise fun left right => decide (r left right) = true :=
    List.pairwise_of_forall_mem_list fun left memLeft right memRight =>
      decide_eq_true (related left right (passes left memLeft) (passes right memRight))
  have sub := List.sublist_mergeSort (decide_trans trans) (decide_total total) ordered
    List.filter_sublist
  have kept := sub.filter keep
  rw [List.filter_eq_self.mpr passes] at kept
  have length := ((List.mergeSort_perm items fun left right => decide (r left right)).filter
    keep).length_eq
  exact (kept.eq_of_length length.symm).symm

/-- Whether a slot is visited before another one: by namespaces, then in the order of the
transactions, and then in the order of their blobs. -/
def Slot.Before (left right : Slot) : Prop :=
  left.blob.ns < right.blob.ns ∨ left.blob.ns = right.blob.ns ∧
    (left.tx < right.tx ∨ left.tx = right.tx ∧ left.position < right.position)

namespace Layout

section Order

/-- The positions of a list go up. -/
theorem pairwise_zipIdx {α : Type} (items : List α) :
    items.zipIdx.Pairwise fun left right => left.2 < right.2 := by
  have positions : (items.zipIdx.map Prod.snd).Pairwise (· < ·) := by
    rw [List.zipIdx_map_snd]
    exact List.pairwise_lt_range'
  exact List.pairwise_map.mp positions

/-- Slots are listed transaction by transaction, and blob by blob. -/
theorem pairwise_slots (candidates : List BlobCandidate) :
    (slots candidates).Pairwise fun left right =>
      left.tx < right.tx ∨ left.tx = right.tx ∧ left.position < right.position := by
  rw [slots_eq_flatMap, List.pairwise_flatMap]
  constructor
  · rintro ⟨candidate, tx⟩ _
    change (slotsOf tx candidate.blobs).Pairwise _
    rw [slotsOf, List.pairwise_map]
    exact (pairwise_zipIdx candidate.blobs).imp fun before => .inr ⟨rfl, before⟩
  · refine (pairwise_zipIdx candidates).imp fun before left memLeft right memRight => .inl ?_
    rw [(tx_of_mem_slotsOf memLeft).1, (tx_of_mem_slotsOf memRight).1]
    exact before

/-- Slots are visited by namespaces, those of one namespace in the order in which they are
listed. -/
theorem before_visitOrder (candidates : List BlobCandidate) :
    (visitOrder candidates).Pairwise Slot.Before := by
  rw [List.pairwise_iff_forall_sublist]
  intro left right pair
  have ordered : left.blob.ns ≤ right.blob.ns :=
    List.pairwise_iff_forall_sublist.mp (pairwise_visitOrder candidates) pair
  by_cases same : left.blob.ns = right.blob.ns
  · -- The slots of one namespace are those that were listed, in their order.
    have listed : (visitOrder candidates).filter (fun slot => slot.blob.ns == left.blob.ns) =
        (slots candidates).filter fun slot => slot.blob.ns == left.blob.ns := by
      refine filter_mergeSort (r := fun first second : Slot => first.blob.ns ≤ second.blob.ns)
        (fun _ _ _ => Namespace.le_trans) (fun _ _ => Namespace.le_total _ _) ?_ _
      intro first second own other
      rw [beq_iff_eq.mp own, beq_iff_eq.mp other]
      exact Namespace.le_refl _
    have both : [left, right].filter (fun slot => slot.blob.ns == left.blob.ns) =
        [left, right] := by
      refine List.filter_eq_self.mpr fun slot member => beq_iff_eq.mpr ?_
      rcases List.mem_pair.mp member with first | second
      · rw [first]
      · rw [second, same]
    have apart := pair.filter fun slot => slot.blob.ns == left.blob.ns
    rw [both, listed] at apart
    exact .inr ⟨same, List.pairwise_iff_forall_sublist.mp (pairwise_slots candidates)
      (apart.trans List.filter_sublist)⟩
  · exact .inl (Namespace.not_le.mp fun above => same (Namespace.le_antisymm ordered above))

end Order

/-- The first share behind the blobs that visits place, from a share on. -/
def cursorAfter (start : Nat) (visits : List Visit) : Nat :=
  visits.foldl (fun cursor one =>
    (one.placement.start?.map (· + one.slot.blob.shareCount)).getD cursor) start

/-- The places that a blob may have behind a cursor. -/
def allowed (cursor alignment : Nat) : Set Nat := {place | cursor ≤ place ∧ alignment ∣ place}

section Decided

variable (squareSize nonReservedStart : Nat)

/-- What becomes of a slot after earlier visits. -/
inductive Decided (earlier : List Visit) (slot : Slot) : Placement → Prop
  /-- Its transaction is out by then. -/
  | skipped (out : slot.tx ∈ outOf earlier) : Decided earlier slot .skipped
  /-- It stands at the first allowed place behind the cursor and ends in the square. -/
  | placed {start : Nat} (stays : slot.tx ∉ outOf earlier)
      (first : IsLeast (allowed (cursorAfter nonReservedStart earlier)
        (blobAlignment slot.blob.shareCount squareSize)) start)
      (room : start + slot.blob.shareCount ≤ squareSize * squareSize) :
      Decided earlier slot (.placed start)
  /-- From the first allowed place behind the cursor on it does not end in the square. -/
  | overflow {start : Nat} (stays : slot.tx ∉ outOf earlier)
      (first : IsLeast (allowed (cursorAfter nonReservedStart earlier)
        (blobAlignment slot.blob.shareCount squareSize)) start)
      (full : squareSize * squareSize < start + slot.blob.shareCount) :
      Decided earlier slot (.overflow start)

/-- Whether every visit is decided by the visits before it. -/
def Traced (earlier visits : List Visit) : Prop :=
  ∀ before one after, visits = before ++ one :: after →
    Decided squareSize nonReservedStart (earlier ++ before) one.slot one.placement

variable {squareSize nonReservedStart} {earlier visits : List Visit}

/-- No visit is to be decided when there is none. -/
theorem Traced.nil : Traced squareSize nonReservedStart earlier [] := by
  intro before one after parts
  exact absurd parts.symm (List.append_ne_nil_of_right_ne_nil _ (List.cons_ne_nil _ _))

/-- Visits are traced when the first one is decided and the others are traced behind it. -/
theorem Traced.cons {one : Visit}
    (decided : Decided squareSize nonReservedStart earlier one.slot one.placement)
    (later : Traced squareSize nonReservedStart (earlier ++ [one]) visits) :
    Traced squareSize nonReservedStart earlier (one :: visits) := by
  intro before other after parts
  cases before with
  | nil =>
    obtain ⟨rfl, _⟩ := List.cons.inj parts
    rw [List.append_nil]
    exact decided
  | cons head before =>
    obtain ⟨rfl, rest⟩ := List.cons.inj parts
    have decided := later before other after rest
    rwa [List.append_assoc, List.singleton_append] at decided

/-- The cursor after one more visit. -/
theorem cursorAfter_concat (start : Nat) (visits : List Visit) (one : Visit) :
    cursorAfter start (visits ++ [one]) =
      (one.placement.start?.map (· + one.slot.blob.shareCount)).getD
        (cursorAfter start visits) := by
  rw [cursorAfter, List.foldl_append]
  rfl

/-- A transaction is out after one more visit when it was before or the visit takes it out. -/
theorem mem_outOf_concat {tx : Nat} {one : Visit} : tx ∈ outOf (visits ++ [one]) ↔
    tx ∈ outOf visits ∨ one.placement.isOverflow = true ∧ tx = one.slot.tx := by
  rw [outOf, List.filter_append, List.map_append, List.mem_append, ← outOf]
  refine or_congr_right ?_
  cases full : one.placement.isOverflow with
  | false => simp [full]
  | true => simp [full]

/-- The next place is the first allowed one behind the cursor. -/
theorem isLeast_nextPlace (positive : 0 < squareSize) (cursor shareCount : Nat) :
    IsLeast (allowed cursor (blobAlignment shareCount squareSize))
      (nextPlace squareSize cursor shareCount) := by
  constructor
  · exact ⟨le_nextPlace positive cursor shareCount, dvd_nextPlace squareSize cursor shareCount⟩
  · rintro place ⟨behind, multiple, rfl⟩
    rw [Nat.mul_comm] at behind ⊢
    exact Nat.mul_le_mul_right _ (ceilDiv_le behind)

/-- In a square that share indexes reach, there is room exactly for what ends in it. -/
theorem hasRoom_iff (narrow : squareSize * squareSize < UInt32.size) {start shareCount : Nat} :
    hasRoom squareSize start shareCount = true ↔
      start + shareCount ≤ squareSize * squareSize := by
  rw [hasRoom, Bool.and_eq_true, decide_eq_true_eq, decide_eq_true_eq]
  omega

/-- Visits of slots are decided one after the other. -/
theorem traced_of_visit (positive : 0 < squareSize)
    (narrow : squareSize * squareSize < UInt32.size) {slots : List Slot} {cursor : Nat}
    {out : List Nat} (found : visit squareSize cursor out slots = some visits)
    (behind : cursor = cursorAfter nonReservedStart earlier)
    (gone : ∀ tx, tx ∈ out ↔ tx ∈ outOf earlier) :
    Traced squareSize nonReservedStart earlier visits := by
  -- The cursor and the transactions that are out are those that the earlier visits leave.
  induction slots generalizing cursor out earlier visits with
  | nil =>
    rw [visit, Option.some.injEq] at found
    rw [← found]
    exact Traced.nil
  | cons slot rest ih =>
    have first := isLeast_nextPlace positive cursor slot.blob.shareCount
    rw [behind] at first
    rcases visit_cons_cases found with ⟨later, out, visited, rfl⟩ |
      ⟨later, stays, room, visited, rfl⟩ | ⟨later, stays, full, visited, rfl⟩
    · refine Traced.cons (.skipped ((gone slot.tx).mp out)) (ih visited ?_ fun tx => ?_)
      · rw [cursorAfter_concat]
        exact behind
      · rw [mem_outOf_concat, gone tx]
        simp [Placement.isOverflow]
    · rw [gone slot.tx] at stays
      rw [behind] at room visited ⊢
      refine Traced.cons (.placed stays first ((hasRoom_iff narrow).mp room))
        (ih visited ?_ fun tx => ?_)
      · rw [cursorAfter_concat]
        rfl
      · rw [mem_outOf_concat, gone tx]
        simp [Placement.isOverflow]
    · rw [gone slot.tx] at stays
      have beyond := Nat.lt_of_not_le (mt (hasRoom_iff narrow).mpr full)
      rw [behind] at beyond ⊢
      refine Traced.cons (.overflow stays first beyond) (ih visited ?_ fun tx => ?_)
      · rw [cursorAfter_concat]
        exact behind
      · rw [mem_outOf_concat, List.mem_cons, gone tx]
        simp [Placement.isOverflow, or_comm]

end Decided

end Layout

end DataSquare
