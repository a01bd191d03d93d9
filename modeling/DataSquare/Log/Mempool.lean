import DataSquare.Log.Event
import DataSquare.Mempool.Eviction
import DataSquare.Square.Layout

/-!
# Events of the mempool

What is reported when candidates are collected, measured, evicted and placed. Main statement:
collecting candidates reports every transaction that it drops, and then how many there were.
-/
namespace DataSquare.Log

/-- The transaction that an event is about. -/
def txField (raw : Bytes) : Field := .text "tx" (Text.identifier (txHash raw).bytes)

/-- The event of a transaction that is dropped. -/
def dropping (raw : Bytes) (reason : DropReason) : Event :=
  let event (message : String) (fields : List Field) : Event :=
    ⟨.warn, target "parse", message, txField raw :: fields, none⟩
  match reason with
  | .oversized size limit =>
    event "dropping oversized transaction" [.number "size" size, .number "max" limit]
  | .indexWrapped => event "dropping index wrapped transaction submitted by a user" []
  | .paysWithoutBlobs => event "dropping MsgPayForBlobs without blobs" []
  | .envelope cause => event "dropping invalid blob transaction" [.text "err" cause.message]
  | .blobTx cause => event "dropping invalid blob transaction" [.text "err" cause.message]

/-- The event of a submitted transaction, if it is dropped. -/
def droppingOf? (consts : AppConsts) (raw : Bytes) : Option Event :=
  match Candidate.ofBytes raw consts with
  | .ok _ => none
  | .error reason => some (dropping raw reason)

/-- The events of collecting candidates from submitted transactions. -/
def collecting (raws : List Bytes) (consts : AppConsts) : List Event :=
  raws.filterMap (droppingOf? consts) ++
    [⟨.debug, target "parse", "parsed candidate transactions",
      [.number "received" raws.length, .number "kept" (Candidate.collect raws consts).length],
      none⟩]

/-- The events of measuring the square for totals. -/
def measuring (usage : Usage) (consts : AppConsts) : List Event :=
  match Estimate.ofUsage usage consts with
  | .error _ => []
  | .ok estimate =>
    [⟨.debug, target "estimate", "estimated square size",
      [.number "used" usage.shares, .number "square_size" estimate.squareSize,
        .number "non_reserved_start" estimate.nonReservedStart], none⟩]

/-- The events of evicting candidates. -/
def evicting (evicted : List Prioritized) : List Event :=
  evicted.map fun one =>
    ⟨.debug, target "prune", "pruning transaction", [.number "arrival" one.arrival], none⟩

/-- The events of pruning blob transactions until the rest fits. -/
def pruning (candidates : List Candidate) (policy : PriorityPolicy) (consts : AppConsts) :
    List Event :=
  let order := Eviction.blobOrder policy candidates
  match Eviction.victims consts (Usage.ofCandidates candidates) order with
  | none => evicting order
  | some [] => []
  | some evicted =>
    evicting evicted ++
      [⟨.warn, target "prune", "pruned blob transactions over capacity",
        [.number "pruned" evicted.length, .number "kept" (candidates.length - evicted.length)],
        none⟩]

/-- The events of pruning ordinary transactions until they fit. -/
def pruningOrdinary (candidates : List Candidate) (policy : PriorityPolicy)
    (consts : AppConsts) : List Event :=
  let ordinary := Eviction.ordinary candidates
  let order := Eviction.order policy (Eviction.prioritize ordinary)
  let kept := ((Eviction.pruneOrdinary candidates policy consts).toOption.getD []).length
  evicting ((Eviction.victims consts (Usage.ofCandidates ordinary) order).getD order) ++
    [⟨.warn, target "prune", "ordinary transactions exceed the largest square",
      [.number "dropped" (candidates.length - kept), .number "kept" kept], none⟩]

/-- The event of visiting a blob, if it does not fit. -/
def overflowing? (visit : Visit) : Option Event :=
  match visit.placement with
  | .overflow start =>
    some ⟨.debug, target "layout", "blob does not fit",
      [.number "tx" visit.slot.tx, .number "blob" visit.slot.position, .number "start" start,
        .number "share_count" visit.slot.blob.shareCount], none⟩
  | _ => none

/-- The events of placing the blobs of candidates. -/
def placing (squareSize nonReservedStart : Nat) (candidates : List Candidate) : List Event :=
  let visits := (Layout.visits? squareSize nonReservedStart candidates).getD []
  let removed := ((Layout.finalize? squareSize nonReservedStart candidates).map
    Layout.removed).getD []
  visits.filterMap overflowing? ++ removed.map fun candidate =>
    ⟨.warn, target "layout", "blob transaction does not fit in the square",
      [.number "blobs" candidate.blobs.length], none⟩

/-- Collecting reports every transaction that is dropped, and how many candidates there are. -/
theorem length_collecting (raws : List Bytes) (consts : AppConsts) :
    (collecting raws consts).length + (Candidate.collect raws consts).length =
      raws.length + 1 := by
  have hsplit : (raws.filterMap (droppingOf? consts)).length +
      (Candidate.collect raws consts).length = raws.length := by
    unfold Candidate.collect
    induction raws with
    | nil => rfl
    | cons raw rest ih =>
      cases h : Candidate.ofBytes raw consts with
      | ok candidate =>
        have hdrop : droppingOf? consts raw = none := by simp [droppingOf?, h]
        have hkeep : (Candidate.ofBytes raw consts).toOption = some candidate := by rw [h]; rfl
        simp only [List.filterMap_cons, hdrop, hkeep, List.length_cons]
        omega
      | error reason =>
        have hdrop : droppingOf? consts raw = some (dropping raw reason) := by
          simp [droppingOf?, h]
        have hkeep : (Candidate.ofBytes raw consts).toOption = none := by rw [h]; rfl
        simp only [List.filterMap_cons, hdrop, hkeep, List.length_cons]
        omega
  simp only [collecting, List.length_append, List.length_singleton]
  omega

end DataSquare.Log
