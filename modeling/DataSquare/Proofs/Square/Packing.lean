import DataSquare.Proofs.Mempool.Usage
import DataSquare.Proofs.Square.Trace

/-!
# How far packed blobs reach

Blobs are packed one after the other, each at the next multiple of its alignment. Without regard to
the end of the square this reaches some share, and a layout removes nothing exactly when that share
is not behind the end. What is wasted in front of a blob is less than twice the blob. In squares of
width eight or less it is no more than what is packed before it: the waste depends on the cursor up
to multiples of eight, and a credit for each remainder pays for the blobs that waste more than they
take.
-/
namespace DataSquare

namespace Layout

/-- The end of blobs of some shares that are packed from a cursor on. -/
def packedEnd (squareSize : Nat) : Nat → List Nat → Nat
  | cursor, [] => cursor
  | cursor, shareCount :: rest =>
    packedEnd squareSize (nextPlace squareSize cursor shareCount + shareCount) rest

section Packing

variable {squareSize : Nat}

/-- Less is wasted in front of a blob than twice the blob. -/
theorem nextPlace_le (positive : 0 < squareSize) (cursor shareCount : Nat) :
    nextPlace squareSize cursor shareCount ≤ cursor + 2 * shareCount := by
  have near := nextPlace_lt positive cursor shareCount
  have alignment : blobAlignment shareCount squareSize ≤ ceilPowerOfTwo shareCount :=
    Nat.min_le_left _ _
  cases shareCount with
  | zero =>
    have one : ceilPowerOfTwo 0 = 1 := by decide
    omega
  | succ count =>
    have twice : ceilPowerOfTwo (count + 1) < 2 * (count + 1) :=
      ceilPowerOfTwo_lt (Nat.succ_pos count)
    omega

/-- In squares of width four or less no more is wasted in front of a blob than the blob takes. -/
theorem nextPlace_le_of_le_four (positive : 0 < squareSize) (small : squareSize ≤ 4)
    (cursor shareCount : Nat) :
    nextPlace squareSize cursor shareCount ≤ cursor + shareCount := by
  have near := nextPlace_lt positive cursor shareCount
  have byWidth : blobAlignment shareCount squareSize ≤ squareSize := Nat.min_le_right _ _
  have byCount : blobAlignment shareCount squareSize ≤ ceilPowerOfTwo shareCount :=
    Nat.min_le_left _ _
  by_cases large : 3 ≤ shareCount
  · omega
  · have few : ∀ count < 3, ceilPowerOfTwo count ≤ count + 1 := by decide
    have rounded := few shareCount (by omega)
    omega

/-- What every packed blob keeps is kept by all of them. -/
theorem packedEnd_induction (keeps : Nat → Nat → Prop)
    (step : ∀ used cursor shareCount, keeps used cursor →
      keeps (used + shareCount) (nextPlace squareSize cursor shareCount + shareCount))
    (used : Nat) {cursor : Nat} (initial : keeps used cursor) (shareCounts : List Nat) :
    keeps (used + shareCounts.sum) (packedEnd squareSize cursor shareCounts) := by
  induction shareCounts generalizing used cursor with
  | nil => exact initial
  | cons shareCount rest ih =>
    rw [List.sum_cons, ← Nat.add_assoc, packedEnd]
    exact ih _ (step used cursor shareCount initial)

/-- Packed blobs end behind the cursor. -/
theorem le_packedEnd (positive : 0 < squareSize) (cursor : Nat) (shareCounts : List Nat) :
    cursor ≤ packedEnd squareSize cursor shareCounts := by
  refine packedEnd_induction (fun _ reached => cursor ≤ reached)
    (fun _ reached shareCount before => ?_) 0 (Nat.le_refl cursor) shareCounts
  have behind := le_nextPlace positive reached shareCount
  omega

/-- Packed blobs reach no further than three times all shares. -/
theorem packedEnd_le (positive : 0 < squareSize) (cursor : Nat) (shareCounts : List Nat) :
    packedEnd squareSize cursor shareCounts ≤ 3 * (cursor + shareCounts.sum) := by
  have start : cursor ≤ 3 * cursor := by omega
  refine packedEnd_induction (fun used reached => reached ≤ 3 * used)
    (fun used reached shareCount before => ?_) cursor start shareCounts
  have wasted := nextPlace_le positive reached shareCount
  omega

/-- In squares of width four or less packed blobs reach no further than twice all shares. -/
theorem packedEnd_le_of_le_four (positive : 0 < squareSize) (small : squareSize ≤ 4)
    (cursor : Nat) (shareCounts : List Nat) :
    packedEnd squareSize cursor shareCounts ≤ 2 * (cursor + shareCounts.sum) := by
  have start : cursor ≤ 2 * cursor := by omega
  refine packedEnd_induction (fun used reached => reached ≤ 2 * used)
    (fun used reached shareCount before => ?_) cursor start shareCounts
  have wasted := nextPlace_le_of_le_four positive small reached shareCount
  omega

/-- By how much a cursor may be ahead of twice the shares before it, less two, by its remainder. -/
def credit (remainder : Nat) : Nat := [2, 1, 0, 3, 2, 3, 2, 1].getD remainder 0

/-- The alignment of blobs of five shares or more is eight in a square of width eight. -/
theorem blobAlignment_eight {shareCount : Nat} (large : 5 ≤ shareCount) :
    blobAlignment shareCount 8 = 8 := by
  obtain ⟨exponent, power⟩ :=
    (isPowerOfTwo_iff_two_pow _).mp (isPowerOfTwo_ceilPowerOfTwo shareCount)
  have reached := le_ceilPowerOfTwo shareCount
  have high : 3 ≤ exponent := by
    by_contra low
    have bound : 2 ^ exponent ≤ 2 ^ 2 := Nat.pow_le_pow_right (by decide) (by omega)
    omega
  have eight : 2 ^ 3 ≤ 2 ^ exponent := Nat.pow_le_pow_right (by decide) high
  exact Nat.min_eq_right (by omega)

/-- What a large blob wastes is paid by the credit of the remainder before it and by what the blob
takes. -/
theorem credit_step_large (cursor : Nat) {shareCount : Nat} (large : 5 ≤ shareCount) :
    credit (cursor % 8) + nextPlace 8 cursor shareCount ≤
      cursor + shareCount + credit ((nextPlace 8 cursor shareCount + shareCount) % 8) := by
  have place : nextPlace 8 cursor shareCount = cursor + (8 - cursor % 8) % 8 := by
    rw [nextPlace, blobAlignment_eight large, ceilDiv_mul_eq cursor (by decide)]
  -- The blob starts at a multiple of eight, whatever the cursor is.
  have remainder : (nextPlace 8 cursor shareCount + shareCount) % 8 = shareCount % 8 := by omega
  have used : ∀ remainder < 8, credit remainder + (8 - remainder) % 8 ≤ 8 := by decide
  have gained : ∀ count < 8, 5 ≤ count → 8 ≤ count + credit count := by decide
  have before := used (cursor % 8) (Nat.mod_lt _ (by decide))
  rw [remainder, place]
  by_cases less : shareCount < 8
  · have after := gained shareCount less large
    rw [Nat.mod_eq_of_lt less]
    omega
  · omega

/-- The same holds of small blobs, of which there are few. -/
theorem credit_step_small (cursor : Nat) {shareCount : Nat} (small : shareCount < 5) :
    credit (cursor % 8) + nextPlace 8 cursor shareCount ≤
      cursor + shareCount + credit ((nextPlace 8 cursor shareCount + shareCount) % 8) := by
  have few : ∀ remainder < 8, ∀ count < 5, credit remainder + nextPlace 8 remainder count ≤
      remainder + count + credit ((nextPlace 8 remainder count + count) % 8) := by decide
  have own := few (cursor % 8) (Nat.mod_lt _ (by decide)) shareCount small
  -- A multiple of eight in front moves the next place by as much.
  have divides : ∀ count < 5, blobAlignment count 8 ∣ 8 := by decide
  have alignment := blobAlignment_pos shareCount (show 0 < 8 by decide)
  have place : nextPlace 8 cursor shareCount =
      cursor + (nextPlace 8 (cursor % 8) shareCount - cursor % 8) := by
    rw [nextPlace, nextPlace, ceilDiv_mul_eq cursor alignment, ceilDiv_mul_eq _ alignment,
      Nat.mod_mod_of_dvd _ (divides shareCount small), Nat.add_sub_cancel_left]
  have behind := le_nextPlace (show 0 < 8 by decide) (cursor % 8) shareCount
  have remainder : (nextPlace 8 cursor shareCount + shareCount) % 8 =
      (nextPlace 8 (cursor % 8) shareCount + shareCount) % 8 := by omega
  rw [remainder, place]
  omega

/-- In a square of width eight packed blobs end inside when all shares take half of it at most. -/
theorem packedEnd_eight_le {cursor : Nat} {shareCounts : List Nat}
    (half : 2 * (cursor + shareCounts.sum) ≤ 64) : packedEnd 8 cursor shareCounts ≤ 64 := by
  have start : cursor + 2 ≤ 2 * cursor + credit (cursor % 8) := by
    have free : ∀ remainder < 8, 2 ≤ remainder + credit remainder := by decide
    have own := free (cursor % 8) (Nat.mod_lt _ (by decide))
    have below := Nat.mod_le cursor 8
    omega
  have reached : packedEnd 8 cursor shareCounts + 2 ≤
      2 * (cursor + shareCounts.sum) + credit (packedEnd 8 cursor shareCounts % 8) := by
    refine packedEnd_induction (fun used reached => reached + 2 ≤ 2 * used + credit (reached % 8))
      (fun used reached shareCount before => ?_) cursor start shareCounts
    have step : credit (reached % 8) + nextPlace 8 reached shareCount ≤
        reached + shareCount + credit ((nextPlace 8 reached shareCount + shareCount) % 8) := by
      by_cases large : 5 ≤ shareCount
      · exact credit_step_large reached large
      · exact credit_step_small reached (Nat.lt_of_not_le large)
    omega
  have bound : ∀ remainder < 8, credit remainder ≤ 2 ∨ credit remainder = 3 ∧ 3 ≤ remainder := by
    decide
  have own := bound _ (Nat.mod_lt (packedEnd 8 cursor shareCounts) (by decide))
  omega

end Packing

section Removed

variable {squareSize : Nat}

/-- No transaction is out after visits of slots exactly when these are packed inside the square. -/
theorem outOf_eq_nil_iff (positive : 0 < squareSize)
    (narrow : squareSize * squareSize < UInt32.size) {slots : List Slot} {cursor : Nat}
    {visits : List Visit} (found : visit squareSize cursor [] slots = some visits)
    (inside : cursor ≤ squareSize * squareSize) :
    outOf visits = [] ↔ packedEnd squareSize cursor (slots.map fun slot => slot.blob.shareCount) ≤
      squareSize * squareSize := by
  induction slots generalizing cursor visits with
  | nil =>
    rw [visit, Option.some.injEq] at found
    rw [← found]
    exact iff_of_true rfl inside
  | cons slot rest ih =>
    rw [List.map_cons, packedEnd]
    rcases visit_cons_cases found with ⟨later, out, _⟩ |
      ⟨later, _, room, visited, rfl⟩ | ⟨later, _, full, _, rfl⟩
    · exact absurd out List.not_mem_nil
    · rw [outOf_cons]
      exact ih visited ((hasRoom_iff narrow).mp room)
    · have beyond := mt (hasRoom_iff narrow).mpr full
      have reached := le_packedEnd positive
        (nextPlace squareSize cursor slot.blob.shareCount + slot.blob.shareCount)
        (rest.map fun slot => slot.blob.shareCount)
      rw [outOf_cons]
      exact iff_of_false (List.cons_ne_nil _ _) (by omega)

/-- A layout removes nothing exactly when its blobs are packed inside the square. -/
theorem removed_eq_nil_iff (positive : 0 < squareSize)
    (narrow : squareSize * squareSize < UInt32.size) {start : Nat}
    (inside : start ≤ squareSize * squareSize) {candidates : List Candidate} {layout : Layout}
    (made : finalize? squareSize start candidates = some layout) :
    layout.removed = [] ↔ packedEnd squareSize start
      ((visitOrder (candidates.filterMap Candidate.blob?)).map fun slot =>
        slot.blob.shareCount) ≤ squareSize * squareSize := by
  obtain ⟨visits, found, rfl⟩ := Option.map_eq_some_iff.mp made
  have visited := visited_of_visit positive found
  rw [← outOf_eq_nil_iff positive narrow found inside]
  constructor
  · intro nothing
    rw [List.eq_nil_iff_forall_not_mem]
    intro tx out
    obtain ⟨one, member, rfl⟩ := List.mem_map.mp out
    have slot := List.mem_map_of_mem (f := Visit.slot) (List.mem_filter.mp member).1
    rw [visited.slots_eq] at slot
    obtain ⟨candidate, entry, _⟩ := exists_of_mem_visitOrder slot
    have removed : candidate ∈ (ofVisits squareSize start
        (candidates.filterMap Candidate.ordinary?) (candidates.filterMap Candidate.blob?)
          visits).removed :=
      List.mem_map.mpr ⟨_, List.mem_filter.mpr ⟨entry, List.contains_iff_mem.mpr out⟩, rfl⟩
    rw [nothing] at removed
    exact List.not_mem_nil removed
  · intro nothing
    rw [ofVisits, nothing]
    simp

end Removed

end Layout

end DataSquare
