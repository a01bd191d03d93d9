import DataSquare.Proofs.Square.Placement

/-!
# The blobs of a layout are sorted stably

A list that is sorted by an order is determined by its classes, the parts whose entries the order
does not tell apart. A stable sort keeps the classes, so it may be done before or after some entries
are taken out. Hence the blobs of a layout are those of its placed transactions, sorted by their
namespaces: the places of the blobs decide nothing but which transactions are out.
-/
namespace DataSquare

section Classes

variable {α : Type} {r : α → α → Prop}

/-- The head of a sorted list may stand in front of every entry. -/
theorem rel_head_of_mem (reflexive : ∀ one, r one one) {head other : α} {items : List α}
    (sorted : (head :: items).Pairwise r) (member : other ∈ head :: items) : r head other := by
  rcases List.mem_cons.mp member with same | inside
  · rw [same]
    exact reflexive head
  · exact List.rel_of_pairwise_cons sorted inside

variable [DecidableRel r]

/-- The entries that an order does not tell apart from one. -/
def classOf (r : α → α → Prop) [DecidableRel r] (one : α) (items : List α) : List α :=
  items.filter fun other => decide (r one other) && decide (r other one)

/-- An entry is of a class when each of both may stand in front of the other. -/
theorem mem_classOf {one other : α} {items : List α} :
    other ∈ classOf r one items ↔ other ∈ items ∧ r one other ∧ r other one := by
  rw [classOf, List.mem_filter, Bool.and_eq_true, decide_eq_true_eq, decide_eq_true_eq]

/-- The class of an entry in a list with one more entry. -/
theorem classOf_cons (one head : α) (items : List α) : classOf r one (head :: items) =
    if r one head ∧ r head one then head :: classOf r one items else classOf r one items := by
  rw [classOf, List.filter_cons]
  simp only [Bool.and_eq_true, decide_eq_true_eq]
  rfl

section Reflexive

variable (reflexive : ∀ one, r one one)
include reflexive

/-- The head of a list is in every list that has the same class of it. -/
theorem head_mem_of_classOf_eq {head : α} {items others : List α}
    (same : classOf r head (head :: items) = classOf r head others) : head ∈ others := by
  have own : head ∈ classOf r head (head :: items) :=
    mem_classOf.mpr ⟨List.mem_cons_self, reflexive head, reflexive head⟩
  rw [same] at own
  exact (mem_classOf.mp own).1

/-- Two sorted lists with the same classes are the same. -/
theorem eq_of_classOf_eq {first second : List α} (sortedFirst : first.Pairwise r)
    (sortedSecond : second.Pairwise r)
    (classes : ∀ one, classOf r one first = classOf r one second) : first = second := by
  induction first generalizing second with
  | nil =>
    rcases second with _ | ⟨head, tail⟩
    · rfl
    · have member := head_mem_of_classOf_eq reflexive (classes head).symm
      exact absurd member List.not_mem_nil
  | cons head rest ih =>
    have member := head_mem_of_classOf_eq reflexive (classes head)
    rcases second with _ | ⟨other, later⟩
    · exact absurd member List.not_mem_nil
    -- Each of the two heads may stand in front of the other, so they are the first of one class.
    have behind := head_mem_of_classOf_eq reflexive (classes other).symm
    have forward := rel_head_of_mem reflexive sortedFirst behind
    have backward := rel_head_of_mem reflexive sortedSecond member
    have heads := classes head
    rw [classOf_cons, classOf_cons, if_pos ⟨reflexive head, reflexive head⟩,
      if_pos ⟨forward, backward⟩] at heads
    obtain rfl := (List.cons.inj heads).1
    have tails : rest = later := by
      refine ih sortedFirst.of_cons sortedSecond.of_cons fun one => ?_
      have whole := classes one
      rw [classOf_cons, classOf_cons] at whole
      split at whole
      · exact (List.cons.inj whole).2
      · exact whole
    rw [tails]

end Reflexive

variable (trans : ∀ low middle high, r low middle → r middle high → r low high)
  (total : ∀ left right, r left right ∨ r right left)
include trans total

/-- Sorting keeps the classes. -/
theorem classOf_mergeSort (one : α) (items : List α) :
    classOf r one (items.mergeSort fun left right => decide (r left right)) =
      classOf r one items := by
  refine filter_mergeSort trans total (fun left right first second => ?_) items
  rw [Bool.and_eq_true, decide_eq_true_eq, decide_eq_true_eq] at first second
  exact trans left one right first.2 second.1

/-- Taking entries out of a sorted list is taking them out before it is sorted. -/
theorem filter_mergeSort_comm (keep : α → Bool) (items : List α) :
    (items.mergeSort fun left right => decide (r left right)).filter keep =
      (items.filter keep).mergeSort fun left right => decide (r left right) := by
  have reflexive : ∀ one, r one one := fun one => (total one one).elim id id
  have taken : ∀ (one : α) (whole : List α),
      classOf r one (whole.filter keep) = (classOf r one whole).filter keep := by
    intro one whole
    rw [classOf, classOf, List.filter_filter, List.filter_filter]
    exact List.filter_congr fun other _ => Bool.and_comm _ _
  refine eq_of_classOf_eq (r := r) reflexive
    ((pairwise_mergeSort trans total items).sublist List.filter_sublist)
    (pairwise_mergeSort trans total (items.filter keep)) fun one => ?_
  calc classOf r one ((items.mergeSort fun left right => decide (r left right)).filter keep)
    _ = (classOf r one (items.mergeSort fun left right => decide (r left right))).filter keep :=
      taken one _
    _ = (classOf r one items).filter keep := by rw [classOf_mergeSort trans total]
    _ = classOf r one (items.filter keep) := (taken one items).symm
    _ = classOf r one ((items.filter keep).mergeSort fun left right => decide (r left right)) :=
      (classOf_mergeSort trans total one _).symm

end Classes

/-- Blobs in the order of their namespaces, those of one namespace in the order they came in. -/
def sortByNamespace (blobs : List Blob) : List Blob :=
  blobs.mergeSort fun left right => decide (left.ns ≤ right.ns)

namespace Layout

/-- The blobs of the slots of transactions that stay are those of the transactions. -/
theorem map_blob_filter_slots (candidates : List BlobCandidate) (stays : Nat → Bool) :
    ((slots candidates).filter fun slot => stays slot.tx).map Slot.blob =
      (candidates.zipIdx.filter fun entry => stays entry.2).flatMap fun entry =>
        entry.1.blobs := by
  have own : ∀ entry ∈ candidates.zipIdx, ∀ slot ∈ slotsOf entry.2 entry.1.blobs,
      stays slot.tx = stays entry.2 :=
    fun _ _ slot member => by rw [(tx_of_mem_slotsOf member).1]
  rw [slots_eq_flatMap, ← flatMap_filter own, List.map_flatMap]
  exact List.flatMap_congr fun entry _ => map_blob_slotsOf entry.2 entry.1.blobs

/-- The blobs of a layout are those of its placed transactions, sorted by namespaces. -/
theorem Visited.blobs_eq_sort {squareSize nonReservedStart : Nat}
    {candidates : List BlobCandidate} {visits : List Visit}
    (visited : Visited squareSize nonReservedStart [] (visitOrder candidates) visits)
    (ordinary : List Bytes) :
    (ofVisits squareSize nonReservedStart ordinary candidates visits).blobs =
      sortByNamespace ((ofVisits squareSize nonReservedStart ordinary candidates
        visits).placed.flatMap fun placed => placed.candidate.blobs) := by
  have placed : (ofVisits squareSize nonReservedStart ordinary candidates
      visits).placed.flatMap (fun placed => placed.candidate.blobs) =
        ((slots candidates).filter fun slot => !overflows visits slot.tx).map Slot.blob := by
    rw [map_blob_filter_slots candidates fun tx => !overflows visits tx, ofVisits,
      List.flatMap_map]
    simp only [contains_outOf]
  rw [visited.blobs_eq, visited.slots_eq, visitOrder,
    filter_mergeSort_comm (r := fun left right : Slot => left.blob.ns ≤ right.blob.ns)
      (fun _ _ _ => Namespace.le_trans) (fun _ _ => Namespace.le_total _ _), placed]
  exact List.map_mergeSort fun _ _ _ _ => rfl

/-- A layout holds the ordinary candidates, and its blobs are those of the transactions that are
placed, sorted by namespaces. -/
theorem contents_of_finalize {squareSize nonReservedStart : Nat} {candidates : List Candidate}
    {layout : Layout} (positive : 0 < layout.squareSize)
    (found : finalize? squareSize nonReservedStart candidates = some layout) :
    layout.ordinary = candidates.filterMap Candidate.ordinary? ∧
      layout.blobs = sortByNamespace (layout.placed.flatMap fun placed =>
        placed.candidate.blobs) := by
  obtain ⟨visits, decided, rfl⟩ := Option.map_eq_some_iff.mp found
  have width : 0 < squareSize := positive
  exact ⟨rfl, (visited_of_visit width decided).blobs_eq_sort _⟩

/-- A layout that removes nothing places all candidates. -/
theorem map_candidate_placed {squareSize start : Nat} {candidates : List Candidate}
    {layout : Layout}
    (made : finalize? squareSize start candidates = some layout) (keepsAll : layout.removed = []) :
    layout.placed.map PlacedTx.candidate = candidates.filterMap Candidate.blob? := by
  obtain ⟨visits, _, rfl⟩ := Option.map_eq_some_iff.mp made
  rw [ofVisits, List.map_eq_nil_iff, List.filter_eq_nil_iff] at keepsAll
  rw [ofVisits, List.map_map, List.filter_eq_self.mpr]
  · exact List.zipIdx_map_fst 0 _
  · intro entry member
    rw [Bool.not_eq_true', Bool.eq_false_iff]
    exact keepsAll entry member

end Layout

end DataSquare
