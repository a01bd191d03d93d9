import DataSquare.Square.Layout
import DataSquare.Proofs.Namespace
import DataSquare.Proofs.Rounding

/-!
# Where blobs are placed

One visit of a slot moves the cursor behind the blob it places, so the placed blobs of all visits
are stacked: each starts at a multiple of its alignment, behind the one before it, and ends in the
square. Places are numbers of 64 bits: only behind the reserved shares can there be none, since the
blobs that are placed end in the square. What stays of a layout is a part of them and is stacked as well. A transaction that is not
out has all its blobs placed, and its share indexes are where they start.
-/
namespace DataSquare

section Sorting

variable {α : Type} {r : α → α → Prop} [DecidableRel r]

/-- An order is transitive where it is decided. -/
theorem decide_trans (trans : ∀ low middle high, r low middle → r middle high → r low high)
    (low middle high : α) (first : decide (r low middle) = true)
    (second : decide (r middle high) = true) : decide (r low high) = true :=
  decide_eq_true (trans low middle high (of_decide_eq_true first) (of_decide_eq_true second))

/-- An order is total where it is decided. -/
theorem decide_total (total : ∀ left right, r left right ∨ r right left) (left right : α) :
    (decide (r left right) || decide (r right left)) = true := by
  rw [Bool.or_eq_true, decide_eq_true_eq, decide_eq_true_eq]
  exact total left right

/-- Sorting by an order puts a list in that order. -/
theorem pairwise_mergeSort (trans : ∀ low middle high, r low middle → r middle high → r low high)
    (total : ∀ left right, r left right ∨ r right left) (items : List α) :
    (items.mergeSort fun left right => decide (r left right)).Pairwise r := by
  have sorted := List.pairwise_mergeSort (decide_trans trans) (decide_total total) items
  exact sorted.imp of_decide_eq_true

end Sorting

/-- Whether shares from `start` on hold `shareCount` more in a square. A share index has 32
bits. -/
def Layout.hasRoom (squareSize start shareCount : Nat) : Bool :=
  start < UInt32.size && start + shareCount ≤ squareSize * squareSize

/-- Whether slots start at shares of a square, each aligned and behind the one before it. -/
inductive Stacked (squareSize : Nat) : Nat → List (Nat × Slot) → Prop
  /-- No slots. -/
  | nil (cursor : Nat) : Stacked squareSize cursor []
  /-- A slot in front of others. -/
  | cons {cursor start : Nat} {slot : Slot} {rest : List (Nat × Slot)} (behind : cursor ≤ start)
      (aligned : blobAlignment slot.blob.shareCount squareSize ∣ start)
      (room : Layout.hasRoom squareSize start slot.blob.shareCount = true)
      (later : Stacked squareSize (start + slot.blob.shareCount) rest) :
      Stacked squareSize cursor ((start, slot) :: rest)

namespace Stacked

variable {squareSize cursor : Nat} {entries : List (Nat × Slot)}

/-- Slots that are stacked from a share on are so from every earlier one on. -/
theorem of_le {earlier : Nat} (stacked : Stacked squareSize cursor entries)
    (ordered : earlier ≤ cursor) : Stacked squareSize earlier entries := by
  cases stacked with
  | nil => exact .nil earlier
  | cons behind aligned room later =>
    exact .cons (Nat.le_trans ordered behind) aligned room later

/-- Some of the slots that are stacked are so as well. -/
theorem sublist {part : List (Nat × Slot)} (stacked : Stacked squareSize cursor entries)
    (sub : part.Sublist entries) : Stacked squareSize cursor part := by
  induction sub generalizing cursor with
  | slnil => exact stacked
  | cons entry _ ih =>
    cases stacked with
    | cons behind aligned room later =>
      exact (ih later).of_le (Nat.le_trans behind (Nat.le_add_right _ _))
  | cons_cons entry _ ih =>
    cases stacked with
    | cons behind aligned room later => exact .cons behind aligned room (ih later)

/-- A stacked slot starts behind the cursor, is aligned and has room. -/
theorem of_mem (stacked : Stacked squareSize cursor entries) {start : Nat} {slot : Slot}
    (member : (start, slot) ∈ entries) : cursor ≤ start ∧
      blobAlignment slot.blob.shareCount squareSize ∣ start ∧ start < UInt32.size ∧
      start + slot.blob.shareCount ≤ squareSize * squareSize := by
  induction stacked with
  | nil => contradiction
  | cons behind aligned room _ ih =>
    rcases List.mem_cons.mp member with same | inside
    · obtain ⟨rfl, rfl⟩ := Prod.mk.inj same
      rw [Layout.hasRoom, Bool.and_eq_true, decide_eq_true_eq, decide_eq_true_eq] at room
      exact ⟨behind, aligned, room⟩
    · obtain ⟨above, rest⟩ := ih inside
      exact ⟨Nat.le_trans behind (Nat.le_trans (Nat.le_add_right _ _) above), rest⟩

/-- Stacked slots end before later ones start. -/
theorem pairwise_end (stacked : Stacked squareSize cursor entries) :
    entries.Pairwise fun left right => left.1 + left.2.blob.shareCount ≤ right.1 := by
  induction stacked with
  | nil => exact List.Pairwise.nil
  | cons _ _ _ later ih => exact List.Pairwise.cons (fun entry member => (later.of_mem member).1) ih

/-- Stacked slots that take shares start one after the other. -/
theorem pairwise_start (stacked : Stacked squareSize cursor entries)
    (nonempty : ∀ entry ∈ entries, 0 < entry.2.blob.shareCount) :
    (entries.map Prod.fst).Pairwise (· < ·) := by
  rw [List.pairwise_map]
  refine stacked.pairwise_end.imp_of_mem fun {left right} member _ before => ?_
  have positive := nonempty left member
  omega

end Stacked

namespace Layout

section Visits

variable {squareSize cursor : Nat} {out : List Nat} {slots : List Slot} {visits : List Visit}

/-- The alignment in a square with a width is positive. -/
theorem blobAlignment_pos (shareCount : Nat) (positive : 0 < squareSize) :
    0 < blobAlignment shareCount squareSize :=
  Nat.lt_min.mpr ⟨pos_of_isPowerOfTwo (isPowerOfTwo_ceilPowerOfTwo shareCount), positive⟩

/-- The first share behind a cursor at which a blob of some shares may start. -/
def nextPlace (squareSize cursor shareCount : Nat) : Nat :=
  ceilDiv cursor (blobAlignment shareCount squareSize) * blobAlignment shareCount squareSize

/-- The next place is not in front of the cursor. -/
theorem le_nextPlace (positive : 0 < squareSize) (cursor shareCount : Nat) :
    cursor ≤ nextPlace squareSize cursor shareCount :=
  le_ceilDiv_mul cursor (blobAlignment_pos shareCount positive)

/-- The next place is aligned. -/
theorem dvd_nextPlace (squareSize cursor shareCount : Nat) :
    blobAlignment shareCount squareSize ∣ nextPlace squareSize cursor shareCount :=
  Nat.dvd_mul_left _ _

/-- The next place is nearer to the cursor than the alignment. -/
theorem nextPlace_lt (positive : 0 < squareSize) (cursor shareCount : Nat) :
    nextPlace squareSize cursor shareCount < cursor + blobAlignment shareCount squareSize := by
  have alignment := blobAlignment_pos shareCount positive
  have lacking := Nat.mod_lt (blobAlignment shareCount squareSize -
    cursor % blobAlignment shareCount squareSize) alignment
  rw [nextPlace, ceilDiv_mul_eq cursor alignment]
  omega

/-- Up to 2⁶³ shares have an alignment of 64 bits. -/
theorem blobAlignment?_eq_some_iff {shareCount alignment : Nat} :
    blobAlignment? shareCount squareSize = some alignment ↔
      shareCount ≤ 2 ^ 63 ∧ alignment = blobAlignment shareCount squareSize := by
  rw [blobAlignment?, Option.map_eq_some_iff]
  constructor
  · rintro ⟨rounded, found, rfl⟩
    obtain ⟨small, rfl⟩ := ceilPowerOfTwo?_eq_some_iff.mp found
    exact ⟨small, rfl⟩
  · rintro ⟨small, rfl⟩
    exact ⟨_, ceilPowerOfTwo?_eq_some_iff.mpr ⟨small, rfl⟩, rfl⟩

/-- There is an alignment of 64 bits exactly up to 2⁶³ shares. -/
theorem exists_blobAlignment?_iff {shareCount : Nat} :
    (∃ alignment, blobAlignment? shareCount squareSize = some alignment) ↔
      shareCount ≤ 2 ^ 63 := by
  simp [blobAlignment?_eq_some_iff]

/-- The first place is the next one in a square with a width, when the shares of the blob have an
alignment of 64 bits and the place fits them as well. -/
theorem firstPlace?_eq_some_iff {shareCount start : Nat} :
    firstPlace? squareSize cursor shareCount = some start ↔
      0 < squareSize ∧ shareCount ≤ 2 ^ 63 ∧
        nextPlace squareSize cursor shareCount < UInt64.size ∧
        start = nextPlace squareSize cursor shareCount := by
  rw [firstPlace?, Option.bind_eq_some_iff]
  constructor
  · rintro ⟨alignment, found, next⟩
    obtain ⟨small, rfl⟩ := blobAlignment?_eq_some_iff.mp found
    rw [nextAligned?] at next
    split at next
    · contradiction
    · rename_i nonzero
      have width : squareSize ≠ 0 := by
        rintro rfl
        exact nonzero (Nat.min_zero _)
      exact ⟨Nat.pos_of_ne_zero width, small, word?_eq_some_iff.mp next⟩
  · rintro ⟨positive, small, fits⟩
    refine ⟨_, blobAlignment?_eq_some_iff.mpr ⟨small, rfl⟩, ?_⟩
    rw [nextAligned?, if_neg (Nat.ne_of_gt (blobAlignment_pos shareCount positive))]
    exact word?_eq_some_iff.mpr fits

/-- A blob of up to 2⁶³ shares has a first place behind a cursor that is not within a width of the
last number of 64 bits. -/
theorem exists_firstPlace {shareCount : Nat} (positive : 0 < squareSize)
    (small : shareCount ≤ 2 ^ 63) (low : cursor + squareSize ≤ UInt64.size) :
    ∃ start, firstPlace? squareSize cursor shareCount = some start := by
  have near := nextPlace_lt positive cursor shareCount
  have narrow : blobAlignment shareCount squareSize ≤ squareSize := Nat.min_le_right _ _
  exact ⟨_, firstPlace?_eq_some_iff.mpr ⟨positive, small, by omega, rfl⟩⟩

/-- Room that is found out is there exactly when a blob has it. -/
theorem hasRoom?_eq_some {start shareCount : Nat} {room : Bool}
    (decided : hasRoom? squareSize start shareCount = some room) :
    room = hasRoom squareSize start shareCount := by
  rw [hasRoom?] at decided
  split at decided
  · rename_i reached
    obtain ⟨capacity, whole, rfl⟩ := Option.map_eq_some_iff.mp decided
    rw [(word?_eq_some_iff.mp whole).2, hasRoom, decide_eq_true reached, Bool.true_and]
  · rename_i beyond
    rw [← Option.some.inj decided, hasRoom, decide_eq_false beyond, Bool.false_and]

/-- In a square whose shares are counted with 64 bits it is found out whether there is room. -/
theorem hasRoom?_of_lt (whole : squareSize * squareSize < UInt64.size) (start shareCount : Nat) :
    hasRoom? squareSize start shareCount = some (hasRoom squareSize start shareCount) := by
  have decided : ∃ room, hasRoom? squareSize start shareCount = some room := by
    rw [hasRoom?, word?_eq_some_iff.mpr ⟨whole, rfl⟩]
    split
    · exact ⟨_, rfl⟩
    · exact ⟨_, rfl⟩
  obtain ⟨room, found⟩ := decided
  rw [found, hasRoom?_eq_some found]

/-- What becomes of the first of several slots, and from where on the others are visited: it is
skipped when its transaction is out, stands at the next place when there is room, and takes its
transaction out otherwise. -/
theorem visit_cons_cases {slot : Slot}
    (found : visit squareSize cursor out (slot :: slots) = some visits) :
    (∃ later, slot.tx ∈ out ∧ visit squareSize cursor out slots = some later ∧
      visits = ⟨slot, .skipped⟩ :: later) ∨
    (∃ later, slot.tx ∉ out ∧
      hasRoom squareSize (nextPlace squareSize cursor slot.blob.shareCount)
        slot.blob.shareCount = true ∧
      visit squareSize (nextPlace squareSize cursor slot.blob.shareCount + slot.blob.shareCount)
        out slots = some later ∧
      visits = ⟨slot, .placed (nextPlace squareSize cursor slot.blob.shareCount)⟩ :: later) ∨
    ∃ later, slot.tx ∉ out ∧
      ¬ hasRoom squareSize (nextPlace squareSize cursor slot.blob.shareCount)
        slot.blob.shareCount = true ∧
      visit squareSize cursor (slot.tx :: out) slots = some later ∧
      visits = ⟨slot, .overflow (nextPlace squareSize cursor slot.blob.shareCount)⟩ :: later := by
  rw [visit] at found
  by_cases gone : slot.tx ∈ out
  · rw [if_pos (List.contains_iff_mem.mpr gone)] at found
    obtain ⟨later, visited, rfl⟩ := Option.map_eq_some_iff.mp found
    exact .inl ⟨later, gone, visited, rfl⟩
  · rw [if_neg (mt List.contains_iff_mem.mp gone)] at found
    obtain ⟨start, next, decided⟩ := Option.bind_eq_some_iff.mp found
    obtain ⟨room, known, stands⟩ := Option.bind_eq_some_iff.mp decided
    obtain ⟨_, _, _, rfl⟩ := firstPlace?_eq_some_iff.mp next
    obtain rfl := hasRoom?_eq_some known
    split at stands
    · rename_i room
      obtain ⟨later, visited, rfl⟩ := Option.map_eq_some_iff.mp stands
      exact .inr (.inl ⟨later, gone, room, visited, rfl⟩)
    · rename_i full
      obtain ⟨later, visited, rfl⟩ := Option.map_eq_some_iff.mp stands
      exact .inr (.inr ⟨later, gone, full, visited, rfl⟩)

/-- The slots that are placed, with where they start. -/
def standing (visits : List Visit) : List (Nat × Slot) :=
  visits.filterMap fun one => one.placement.start?.map (·, one.slot)

/-- A slot stands where it is placed. -/
theorem mem_standing {start : Nat} {slot : Slot} :
    (start, slot) ∈ standing visits ↔ ⟨slot, .placed start⟩ ∈ visits := by
  rw [standing, List.mem_filterMap]
  constructor
  · rintro ⟨⟨other, placement⟩, member, found⟩
    cases placement with
    | placed own =>
      obtain ⟨rfl, rfl⟩ := Prod.mk.inj (Option.some.inj found)
      exact member
    | overflow own => contradiction
    | skipped => contradiction
  · exact fun member => ⟨_, member, rfl⟩

/-- What visits of slots lead to, from a cursor on and with transactions that are already out. -/
structure Visited (squareSize cursor : Nat) (out : List Nat) (slots : List Slot)
    (visits : List Visit) : Prop where
  /-- Every slot is visited in order. -/
  slots_eq : visits.map Visit.slot = slots
  /-- The slots that are placed are stacked. -/
  stacked : Stacked squareSize cursor (standing visits)
  /-- A slot is placed when its transaction neither is out nor comes to be. -/
  placed : ∀ one ∈ visits, one.slot.tx ∉ out → one.slot.tx ∉ outOf visits →
    ∃ start, one.placement = .placed start

/-- The transactions that are out after one more visit. -/
theorem outOf_cons (slot : Slot) (placement : Placement) (visits : List Visit) :
    outOf (⟨slot, placement⟩ :: visits) =
      if placement.isOverflow then slot.tx :: outOf visits else outOf visits := by
  rw [outOf, List.filter_cons]
  split
  · rfl
  · rfl

/-- A slot whose transaction is out is skipped. -/
theorem Visited.skip (visited : Visited squareSize cursor out slots visits) {slot : Slot}
    (gone : slot.tx ∈ out) :
    Visited squareSize cursor out (slot :: slots) (⟨slot, .skipped⟩ :: visits) where
  slots_eq := by rw [List.map_cons, visited.slots_eq]
  stacked := visited.stacked
  placed one member stays remains := by
    rcases List.mem_cons.mp member with rfl | inside
    · exact absurd gone stays
    · exact visited.placed one inside stays remains

/-- A slot that has room is placed in front of what comes behind it. -/
theorem Visited.place {slot : Slot} {start : Nat}
    (visited : Visited squareSize (start + slot.blob.shareCount) out slots visits)
    (behind : cursor ≤ start) (aligned : blobAlignment slot.blob.shareCount squareSize ∣ start)
    (room : hasRoom squareSize start slot.blob.shareCount = true) :
    Visited squareSize cursor out (slot :: slots) (⟨slot, .placed start⟩ :: visits) where
  slots_eq := by rw [List.map_cons, visited.slots_eq]
  stacked := .cons behind aligned room visited.stacked
  placed one member stays remains := by
    rcases List.mem_cons.mp member with rfl | inside
    · exact ⟨start, rfl⟩
    · exact visited.placed one inside stays remains

/-- A slot without room takes its transaction out. -/
theorem Visited.overflow {slot : Slot} (start : Nat)
    (visited : Visited squareSize cursor (slot.tx :: out) slots visits) :
    Visited squareSize cursor out (slot :: slots) (⟨slot, .overflow start⟩ :: visits) where
  slots_eq := by rw [List.map_cons, visited.slots_eq]
  stacked := visited.stacked
  placed one member stays remains := by
    rw [outOf_cons] at remains
    have other : one.slot.tx ∉ slot.tx :: outOf visits := remains
    rw [List.mem_cons, not_or] at other
    rcases List.mem_cons.mp member with rfl | inside
    · exact absurd rfl other.1
    · exact visited.placed one inside (List.not_mem_cons_of_ne_of_not_mem other.1 stays) other.2

/-- Visits that are made are visits of all slots. -/
theorem visited_of_visit (positive : 0 < squareSize)
    (found : visit squareSize cursor out slots = some visits) :
    Visited squareSize cursor out slots visits := by
  induction slots generalizing cursor out visits with
  | nil =>
    obtain rfl := Option.some.inj found
    exact ⟨rfl, .nil cursor, fun one member => absurd member List.not_mem_nil⟩
  | cons slot rest ih =>
    rcases visit_cons_cases found with ⟨later, gone, visited, rfl⟩ |
      ⟨later, _, room, visited, rfl⟩ | ⟨later, _, _, visited, rfl⟩
    · exact (ih visited).skip gone
    · exact (ih visited).place (le_nextPlace positive cursor _)
        (dvd_nextPlace squareSize cursor _) room
    · exact (ih visited).overflow _

/-- All slots are visited in a square that share indexes reach, when every blob has a first place
behind the cursor. -/
theorem exists_visit (positive : 0 < squareSize) (narrow : squareSize * squareSize < UInt32.size)
    (places : ∀ slot ∈ slots, ∃ place,
      firstPlace? squareSize cursor slot.blob.shareCount = some place) (out : List Nat) :
    ∃ visits, visit squareSize cursor out slots = some visits := by
  have words : 2 * UInt32.size ≤ UInt64.size := by decide
  have width : squareSize ≤ squareSize * squareSize := Nat.le_mul_self squareSize
  induction slots generalizing cursor out with
  | nil => exact ⟨[], rfl⟩
  | cons slot rest ih =>
    have others := fun one member => places one (List.mem_cons_of_mem slot member)
    obtain ⟨start, next⟩ := places slot List.mem_cons_self
    have room := hasRoom?_of_lt (show squareSize * squareSize < UInt64.size by omega) start
      slot.blob.shareCount
    simp only [visit, next, room, Option.bind_eq_bind, Option.bind_some]
    split
    · obtain ⟨later, visited⟩ := ih others out
      exact ⟨_, by rw [visited, Option.map_some]⟩
    · split
      · rename_i fits
        rw [hasRoom, Bool.and_eq_true, decide_eq_true_eq, decide_eq_true_eq] at fits
        -- Behind a blob that stands in the square every blob with an alignment has a place.
        have behind : ∀ one ∈ rest, ∃ place, firstPlace? squareSize (start + slot.blob.shareCount)
            one.blob.shareCount = some place := by
          intro one member
          obtain ⟨place, found⟩ := others one member
          exact exists_firstPlace positive (firstPlace?_eq_some_iff.mp found).2.1 (by omega)
        obtain ⟨later, visited⟩ := ih behind out
        exact ⟨_, by rw [visited, Option.map_some]⟩
      · obtain ⟨later, visited⟩ := ih others (slot.tx :: out)
        exact ⟨_, by rw [visited, Option.map_some]⟩

end Visits

/-- Which blob of which transaction a slot is for. -/
def key (slot : Slot) : Nat × Nat := (slot.tx, slot.position)

/-- The slots of one transaction. -/
def slotsOf (tx : Nat) (blobs : List Blob) : List Slot :=
  blobs.zipIdx.map fun (blob, position) => ⟨tx, position, blob⟩

/-- The slot of a blob of a transaction. -/
theorem getElem?_slotsOf {tx position : Nat} {blobs : List Blob} {blob : Blob}
    (found : blobs[position]? = some blob) :
    (slotsOf tx blobs)[position]? = some ⟨tx, position, blob⟩ := by
  rw [slotsOf, List.getElem?_map, List.getElem?_zipIdx, found]
  simp

/-- The slots of one transaction are of it. -/
theorem tx_of_mem_slotsOf {tx : Nat} {blobs : List Blob} {slot : Slot}
    (member : slot ∈ slotsOf tx blobs) : slot.tx = tx ∧ slot.blob ∈ blobs := by
  obtain ⟨⟨blob, position⟩, inside, rfl⟩ := List.mem_map.mp member
  exact ⟨rfl, List.fst_mem_of_mem_zipIdx inside⟩

/-- The blobs of the slots of one transaction are its blobs. -/
theorem map_blob_slotsOf (tx : Nat) (blobs : List Blob) :
    (slotsOf tx blobs).map Slot.blob = blobs := by
  rw [slotsOf, List.map_map]
  exact List.zipIdx_map_fst 0 blobs

/-- Every slot is one of its transaction. -/
theorem slots_eq_flatMap (candidates : List BlobCandidate) : slots candidates =
    candidates.zipIdx.flatMap fun (candidate, tx) => slotsOf tx candidate.blobs := rfl

/-- No two slots are for one blob. -/
theorem nodup_key_slots (candidates : List BlobCandidate) :
    ((slots candidates).map key).Nodup := by
  rw [slots_eq_flatMap, List.map_flatMap, List.nodup_flatMap]
  constructor
  · rintro ⟨candidate, tx⟩ _
    have positions : (candidate.blobs.zipIdx.map Prod.snd).Nodup := by
      rw [List.zipIdx_map_snd]
      exact List.nodup_range'
    change ((slotsOf tx candidate.blobs).map key).Nodup
    rw [slotsOf, List.map_map]
    refine List.Nodup.of_map Prod.snd ?_
    rwa [List.map_map]
  · have distinct : (candidates.zipIdx.map Prod.snd).Nodup := by
      rw [List.zipIdx_map_snd]
      exact List.nodup_range'
    refine (List.pairwise_map.mp distinct).imp fun {left right} apart => ?_
    intro shared memLeft memRight
    obtain ⟨one, inLeft, rfl⟩ := List.mem_map.mp memLeft
    obtain ⟨other, inRight, same⟩ := List.mem_map.mp memRight
    apply apart
    rw [← (tx_of_mem_slotsOf inLeft).1, ← (tx_of_mem_slotsOf inRight).1]
    exact (Prod.mk.inj same).1.symm

/-- A slot that is visited is for a blob of its transaction. -/
theorem exists_of_mem_visitOrder {candidates : List BlobCandidate} {slot : Slot}
    (member : slot ∈ visitOrder candidates) :
    ∃ candidate, (candidate, slot.tx) ∈ candidates.zipIdx ∧ slot.blob ∈ candidate.blobs := by
  obtain ⟨⟨candidate, tx⟩, entry, own⟩ :=
    List.mem_flatMap.mp ((List.mergeSort_perm _ _).mem_iff.mp member)
  obtain ⟨same, listed⟩ := tx_of_mem_slotsOf own
  rw [same]
  exact ⟨candidate, entry, listed⟩

/-- Slots are visited in the order of their namespaces. -/
theorem pairwise_visitOrder (candidates : List BlobCandidate) :
    (visitOrder candidates).Pairwise fun left right => left.blob.ns ≤ right.blob.ns :=
  pairwise_mergeSort (r := fun left right => left.blob.ns ≤ right.blob.ns)
    (fun _ _ _ => Namespace.le_trans) (fun _ _ => Namespace.le_total _ _) (slots candidates)

/-- The placed slots of transactions that are not out. -/
def kept (out : List Nat) (visits : List Visit) : List (Nat × Slot) :=
  (standing visits).filter fun entry => !out.contains entry.2.tx

/-- The blobs of a layout are those of the placed slots of transactions that are not out. -/
theorem map_blob_kept (out : List Nat) (visits : List Visit) :
    (kept out visits).map (fun entry => entry.2.blob) = (visits.filter fun one =>
      one.placement.start?.isSome && !out.contains one.slot.tx).map fun one => one.slot.blob := by
  induction visits with
  | nil => rfl
  | cons one rest ih =>
    obtain ⟨slot, placement⟩ := one
    cases placement with
    | placed start =>
      by_cases gone : slot.tx ∈ out
      · rw [List.filter_cons_of_neg (by simp [gone]), ← ih, kept, kept]
        exact congrArg _ (List.filter_cons_of_neg (by simp [gone]))
      · rw [List.filter_cons_of_pos (by simp [gone, Placement.start?]), List.map_cons, ← ih, kept,
          kept]
        exact congrArg _ (List.filter_cons_of_pos (by simp [gone]))
    | overflow start => exact ih
    | skipped => exact ih

/-- All slots of transactions that are not out are placed. -/
theorem map_snd_kept {out : List Nat} {visits : List Visit}
    (placed : ∀ one ∈ visits, one.slot.tx ∉ out → ∃ start, one.placement = .placed start) :
    (kept out visits).map Prod.snd =
      (visits.map Visit.slot).filter fun slot => !out.contains slot.tx := by
  induction visits with
  | nil => rfl
  | cons one rest ih =>
    have later := ih fun other member => placed other (List.mem_cons_of_mem _ member)
    obtain ⟨slot, placement⟩ := one
    rw [List.map_cons]
    by_cases gone : slot.tx ∈ out
    · rw [List.filter_cons_of_neg (by simp [gone]), ← later]
      cases placement with
      | placed start => exact congrArg _ (List.filter_cons_of_neg (by simp [gone]))
      | overflow start => rfl
      | skipped => rfl
    · obtain ⟨start, rfl⟩ : ∃ start, placement = .placed start :=
        placed _ List.mem_cons_self gone
      rw [List.filter_cons_of_pos (by simp [gone]), ← later]
      exact congrArg (List.map Prod.snd) (List.filter_cons_of_pos (by simp [gone]))

/-- The share index of a blob of a transaction, if the blob is placed. -/
def indexAt (visits : List Visit) (tx position : Nat) : Option UInt32 :=
  (visits.find? fun one =>
    one.slot.tx = tx && one.slot.position = position && one.placement.start?.isSome).bind
    fun one => one.placement.start?.map UInt32.ofNat

/-- The share index of a slot, and none for a slot that is not placed. -/
def indexOf (visits : List Visit) (slot : Slot) : UInt32 :=
  (indexAt visits slot.tx slot.position).getD 0

section Indexes

variable {visits : List Visit} (distinct : ((visits.map Visit.slot).map key).Nodup)
include distinct

/-- The share index of a placed slot is where it starts. -/
theorem indexAt_eq_some {start : Nat} {slot : Slot} (member : (start, slot) ∈ standing visits) :
    indexAt visits slot.tx slot.position = some (UInt32.ofNat start) := by
  have inside := mem_standing.mp member
  have present : (visits.find? fun one => one.slot.tx = slot.tx &&
      one.slot.position = slot.position && one.placement.start?.isSome).isSome := by
    rw [List.find?_isSome]
    exact ⟨_, inside, by simp [Placement.start?]⟩
  obtain ⟨one, found⟩ := Option.isSome_iff_exists.mp present
  have same := List.find?_some found
  simp only [Bool.and_eq_true, decide_eq_true_eq] at same
  rw [List.map_map] at distinct
  have equal : one = ⟨slot, .placed start⟩ :=
    List.inj_on_of_nodup_map distinct (List.mem_of_find?_eq_some found) inside
      (Prod.ext same.1.1 same.1.2)
  rw [indexAt, found, equal]
  rfl

/-- The share index of a placed slot. -/
theorem indexOf_eq {start : Nat} {slot : Slot} (member : (start, slot) ∈ standing visits) :
    indexOf visits slot = UInt32.ofNat start := by
  rw [indexOf, indexAt_eq_some distinct member]
  rfl

/-- The share indexes of a transaction whose blobs are all placed are those of its slots. -/
theorem shareIndexes_eq {tx : Nat} {blobs : List Blob}
    (placed : ∀ slot ∈ slotsOf tx blobs, ∃ start, (start, slot) ∈ standing visits) :
    shareIndexes visits tx blobs.length = (slotsOf tx blobs).map (indexOf visits) := by
  have positions : List.range blobs.length = (slotsOf tx blobs).map Slot.position := by
    rw [slotsOf, List.map_map, List.range_eq_range']
    exact (List.zipIdx_map_snd 0 blobs).symm
  change (List.range blobs.length).filterMap (indexAt visits tx) = _
  rw [positions, List.filterMap_map, ← List.filterMap_eq_map]
  refine List.filterMap_congr fun slot member => ?_
  obtain ⟨start, stands⟩ := placed slot member
  have found := indexAt_eq_some distinct stands
  rw [(tx_of_mem_slotsOf member).1] at found
  rw [Function.comp_apply, found, Function.comp_apply, indexOf_eq distinct stands]

end Indexes

/-- What is known of a layout of blob transactions, with the slots that stay and where they
start. -/
structure Settled (layout : Layout) (candidates : List BlobCandidate)
    (entries : List (Nat × Slot)) : Prop where
  /-- The blobs are those of the slots. -/
  blobs : layout.blobs = entries.map fun entry => entry.2.blob
  /-- The slots are stacked behind the transactions. -/
  stacked : Stacked layout.squareSize layout.nonReservedStart entries
  /-- The blobs are in the order of their namespaces. -/
  sorted : (layout.blobs.map Blob.ns).Pairwise (· ≤ ·)
  /-- The share indexes of all transactions are where the slots start. -/
  indexes : (layout.placed.flatMap PlacedTx.shareIndexes).Perm
    (entries.map fun entry => UInt32.ofNat entry.1)
  /-- A transaction has a share index for each of its blobs, at which the slot of the blob
  starts. -/
  starts : ∀ placed ∈ layout.placed,
    placed.shareIndexes.length = placed.candidate.blobs.length ∧
    ∀ (position : Nat) (blob : Blob), placed.candidate.blobs[position]? = some blob →
      ∃ entry ∈ entries, entry.2.blob = blob ∧
        placed.shareIndexes[position]? = some (UInt32.ofNat entry.1)
  /-- The transactions are some of those that came in, in their order. -/
  placed : (layout.placed.map PlacedTx.candidate).Sublist candidates
  /-- Every blob came in with a transaction. -/
  supplied : ∀ blob ∈ layout.blobs, ∃ candidate ∈ candidates, blob ∈ candidate.blobs

/-- Entries of a list that pass a test, taken apart, are the parts that pass it. -/
theorem flatMap_filter {α β : Type} {keep : α → Bool} {stays : β → Bool} {parts : α → List β}
    {items : List α} (same : ∀ item ∈ items, ∀ part ∈ parts item, stays part = keep item) :
    (items.filter keep).flatMap parts = (items.flatMap parts).filter stays := by
  induction items with
  | nil => rfl
  | cons item rest ih =>
    have later := ih fun other member => same other (List.mem_cons_of_mem _ member)
    have own := same item List.mem_cons_self
    rw [List.flatMap_cons, List.filter_append, ← later]
    by_cases passes : keep item = true
    · rw [List.filter_cons_of_pos passes, List.flatMap_cons, List.filter_eq_self.mpr
        fun part member => (own part member).trans passes]
    · rw [List.filter_cons_of_neg passes, List.filter_eq_nil_iff.mpr
        fun part member holds => passes ((own part member).symm.trans holds), List.nil_append]

section Settling

variable {squareSize nonReservedStart : Nat} {candidates : List BlobCandidate}
  {visits : List Visit}
  (visited : Visited squareSize nonReservedStart [] (visitOrder candidates) visits)
include visited

/-- No two visits are of one blob. -/
theorem Visited.distinct : ((visits.map Visit.slot).map key).Nodup := by
  rw [visited.slots_eq]
  exact ((List.mergeSort_perm _ _).map key).nodup_iff.mpr (nodup_key_slots candidates)

/-- The slots that stay are those of transactions that are not out, in the order of the visits. -/
theorem Visited.map_snd_kept : (kept (outOf visits) visits).map Prod.snd =
    (visitOrder candidates).filter fun slot => !(outOf visits).contains slot.tx := by
  rw [← visited.slots_eq]
  exact Layout.map_snd_kept fun one member stays =>
    visited.placed one member List.not_mem_nil stays

/-- A slot of a transaction that is not out starts somewhere. -/
theorem Visited.exists_kept {slot : Slot} (member : slot ∈ slots candidates)
    (stays : slot.tx ∉ outOf visits) : ∃ start, (start, slot) ∈ kept (outOf visits) visits := by
  have inside : slot ∈ (kept (outOf visits) visits).map Prod.snd := by
    rw [visited.map_snd_kept, List.mem_filter]
    exact ⟨(List.mergeSort_perm _ _).mem_iff.mpr member, by simpa using stays⟩
  obtain ⟨⟨start, _⟩, entry, rfl⟩ := List.mem_map.mp inside
  exact ⟨start, entry⟩

/-- The share indexes of a transaction that is not out are those of its slots. -/
theorem Visited.shareIndexes_eq {candidate : BlobCandidate} {tx : Nat}
    (member : (candidate, tx) ∈ candidates.zipIdx) (stays : tx ∉ outOf visits) :
    shareIndexes visits tx candidate.blobs.length =
      (slotsOf tx candidate.blobs).map (indexOf visits) := by
  apply Layout.shareIndexes_eq visited.distinct
  intro slot own
  have inside : slot ∈ slots candidates := List.mem_flatMap.mpr ⟨_, member, own⟩
  obtain ⟨start, entry⟩ := visited.exists_kept inside (by rwa [(tx_of_mem_slotsOf own).1])
  exact ⟨start, (List.mem_filter.mp entry).1⟩

/-- The blobs of all transactions that are not out have the share indexes at which the slots that
stay start. -/
theorem Visited.perm_places (ordinary : List Bytes) :
    ((ofVisits squareSize nonReservedStart ordinary candidates visits).placed.flatMap
      fun placed => placed.shareIndexes.zip placed.candidate.blobs).Perm
        ((kept (outOf visits) visits).map fun entry =>
          (UInt32.ofNat entry.1, entry.2.blob)) := by
  have places : (ofVisits squareSize nonReservedStart ordinary candidates visits).placed.flatMap
      (fun placed => placed.shareIndexes.zip placed.candidate.blobs) =
        ((slots candidates).filter fun slot => !(outOf visits).contains slot.tx).map
          fun slot => (indexOf visits slot, slot.blob) := by
    have stays : ∀ entry ∈ candidates.zipIdx, ∀ slot ∈ slotsOf entry.2 entry.1.blobs,
        (!(outOf visits).contains slot.tx) = !(outOf visits).contains entry.2 :=
      fun _ _ slot own => by rw [(tx_of_mem_slotsOf own).1]
    rw [slots_eq_flatMap, ← flatMap_filter stays, List.map_flatMap]
    rw [ofVisits, List.flatMap_map]
    refine List.flatMap_congr fun entry member => ?_
    obtain ⟨inside, stays⟩ := List.mem_filter.mp member
    dsimp only
    rw [visited.shareIndexes_eq inside (by simpa using stays)]
    calc ((slotsOf entry.2 entry.1.blobs).map (indexOf visits)).zip entry.1.blobs
      _ = ((slotsOf entry.2 entry.1.blobs).map (indexOf visits)).zip
          ((slotsOf entry.2 entry.1.blobs).map Slot.blob) := by rw [map_blob_slotsOf]
      _ = (slotsOf entry.2 entry.1.blobs).map fun slot => (indexOf visits slot, slot.blob) :=
        List.zip_map'
  have starts : (kept (outOf visits) visits).map
      (fun entry => (UInt32.ofNat entry.1, entry.2.blob)) =
        ((kept (outOf visits) visits).map Prod.snd).map
          fun slot => (indexOf visits slot, slot.blob) := by
    rw [List.map_map]
    refine List.map_congr_left fun entry member => ?_
    rw [Function.comp_apply, indexOf_eq visited.distinct (List.mem_filter.mp member).1]
  rw [places, starts, visited.map_snd_kept]
  exact (((List.mergeSort_perm _ _).symm.filter _).map _)

/-- A transaction that is not out has a share index for each of its blobs. -/
theorem Visited.length_shareIndexes (ordinary : List Bytes) {placed : PlacedTx}
    (member : placed ∈
      (ofVisits squareSize nonReservedStart ordinary candidates visits).placed) :
    placed.shareIndexes.length = placed.candidate.blobs.length := by
  obtain ⟨⟨candidate, tx⟩, inside, rfl⟩ := List.mem_map.mp member
  obtain ⟨entry, stays⟩ := List.mem_filter.mp inside
  dsimp only
  rw [visited.shareIndexes_eq entry (by simpa using stays), List.length_map, slotsOf,
    List.length_map, List.length_zipIdx]

/-- The share indexes of all transactions that are not out are where the slots that stay start. -/
theorem Visited.perm_shareIndexes (ordinary : List Bytes) :
    ((ofVisits squareSize nonReservedStart ordinary candidates visits).placed.flatMap
      PlacedTx.shareIndexes).Perm
        ((kept (outOf visits) visits).map fun entry => UInt32.ofNat entry.1) := by
  have indexes : (ofVisits squareSize nonReservedStart ordinary candidates visits).placed.flatMap
      PlacedTx.shareIndexes =
        ((ofVisits squareSize nonReservedStart ordinary candidates visits).placed.flatMap
          fun placed => placed.shareIndexes.zip placed.candidate.blobs).map Prod.fst := by
    rw [List.map_flatMap]
    refine List.flatMap_congr fun placed member => ?_
    exact (List.map_fst_zip (Nat.le_of_eq (visited.length_shareIndexes ordinary member))).symm
  have starts := (visited.perm_places ordinary).map Prod.fst
  rw [List.map_map] at starts
  rw [indexes]
  exact starts

/-- The layout of visits of all slots is settled. -/
theorem Visited.settled (ordinary : List Bytes) :
    (ofVisits squareSize nonReservedStart ordinary candidates visits).Settled candidates
      (kept (outOf visits) visits) where
  blobs := (map_blob_kept (outOf visits) visits).symm
  stacked := visited.stacked.sublist List.filter_sublist
  sorted := by
    have order : ((kept (outOf visits) visits).map Prod.snd).Pairwise
        fun left right => left.blob.ns ≤ right.blob.ns := by
      rw [visited.map_snd_kept]
      exact (pairwise_visitOrder candidates).sublist List.filter_sublist
    have blobs : ((ofVisits squareSize nonReservedStart ordinary candidates visits).blobs.map
        Blob.ns) = ((kept (outOf visits) visits).map Prod.snd).map fun slot => slot.blob.ns := by
      rw [List.map_map, ofVisits, ← map_blob_kept, List.map_map]
      rfl
    rw [blobs, List.pairwise_map]
    exact order
  indexes := visited.perm_shareIndexes ordinary
  starts placed member := by
    obtain ⟨⟨candidate, tx⟩, inside, rfl⟩ := List.mem_map.mp member
    obtain ⟨entry, stays⟩ := List.mem_filter.mp inside
    have remains : tx ∉ outOf visits := by simpa using stays
    refine ⟨visited.length_shareIndexes ordinary member, fun position blob found => ?_⟩
    dsimp only at found ⊢
    rw [visited.shareIndexes_eq entry remains]
    have slot := @getElem?_slotsOf tx position candidate.blobs blob found
    have own : (⟨tx, position, blob⟩ : Slot) ∈ slots candidates :=
      List.mem_flatMap.mpr ⟨_, entry, List.mem_of_getElem? slot⟩
    obtain ⟨start, stands⟩ := visited.exists_kept own remains
    refine ⟨_, stands, rfl, ?_⟩
    rw [List.getElem?_map, slot, Option.map_some,
      indexOf_eq visited.distinct (List.mem_filter.mp stands).1]
  placed := by
    have sub : ((candidates.zipIdx.filter fun (_, tx) => !(outOf visits).contains tx).map
        Prod.fst).Sublist (candidates.zipIdx.map Prod.fst) :=
      List.Sublist.map Prod.fst List.filter_sublist
    rw [List.zipIdx_map_fst] at sub
    rw [ofVisits, List.map_map]
    exact sub
  supplied blob member := by
    obtain ⟨one, inside, rfl⟩ := List.mem_map.mp member
    have visit : one.slot ∈ visitOrder candidates := by
      rw [← visited.slots_eq]
      exact List.mem_map_of_mem (List.mem_filter.mp inside).1
    obtain ⟨candidate, entry, own⟩ := exists_of_mem_visitOrder visit
    exact ⟨candidate, List.fst_mem_of_mem_zipIdx entry, own⟩

end Settling

/-- A layout that is made in a square with a width is settled. -/
theorem settled_of_finalize {squareSize nonReservedStart : Nat} (positive : 0 < squareSize)
    {candidates : List Candidate} {layout : Layout}
    (made : finalize? squareSize nonReservedStart candidates = some layout) :
    layout.squareSize = squareSize ∧ layout.nonReservedStart = nonReservedStart ∧
      layout.ordinary = candidates.filterMap Candidate.ordinary? ∧
      ∃ entries, layout.Settled (candidates.filterMap Candidate.blob?) entries := by
  obtain ⟨visits, found, rfl⟩ := Option.map_eq_some_iff.mp made
  exact ⟨rfl, rfl, rfl, _, (visited_of_visit positive found).settled _⟩

/-- Candidates have a layout in a square that share indexes reach, when every blob has a first place
behind the reserved shares. -/
theorem exists_finalize {squareSize nonReservedStart : Nat} (positive : 0 < squareSize)
    (narrow : squareSize * squareSize < UInt32.size) {candidates : List Candidate}
    (places : ∀ candidate ∈ candidates.filterMap Candidate.blob?, ∀ blob ∈ candidate.blobs,
      ∃ place, firstPlace? squareSize nonReservedStart blob.shareCount = some place) :
    ∃ layout, finalize? squareSize nonReservedStart candidates = some layout := by
  have slots : ∀ slot ∈ visitOrder (candidates.filterMap Candidate.blob?), ∃ place,
      firstPlace? squareSize nonReservedStart slot.blob.shareCount = some place := by
    intro slot member
    obtain ⟨candidate, entry, own⟩ := exists_of_mem_visitOrder member
    exact places candidate (List.fst_mem_of_mem_zipIdx entry) _ own
  obtain ⟨visits, found⟩ := exists_visit positive narrow slots []
  exact ⟨_, by rw [finalize?, visits?, found, Option.map_some]⟩

/-- Candidates whose blobs have up to 2⁶³ shares have a layout in a square that share indexes reach,
when the reserved shares do not end within a width of the last number of 64 bits. -/
theorem exists_finalize_of_le {squareSize nonReservedStart : Nat} (positive : 0 < squareSize)
    (narrow : squareSize * squareSize < UInt32.size)
    (low : nonReservedStart + squareSize ≤ UInt64.size) (candidates : List Candidate)
    (small : ∀ candidate ∈ candidates.filterMap Candidate.blob?, ∀ blob ∈ candidate.blobs,
      blob.shareCount ≤ 2 ^ 63) :
    ∃ layout, finalize? squareSize nonReservedStart candidates = some layout :=
  exists_finalize positive narrow fun candidate member blob own =>
    exists_firstPlace positive (small candidate member blob own) low

end Layout

end DataSquare
