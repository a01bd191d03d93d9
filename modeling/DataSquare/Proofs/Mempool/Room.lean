import DataSquare.Proofs.Square.Commitment
import DataSquare.Proofs.Square.Packing

/-!
# Room for padding

The estimated width leaves room for twice the shares of the candidates. Up to width eight that is
enough for the padding between blobs, and at every width it is when the shares take a third of the
square. From width sixteen on it is not always enough: blobs of nine and of five shares by turns
waste seven shares each time, and the last one of a square that is not half full runs past its end.
Twice the width always holds all candidates.
-/
namespace DataSquare

namespace Layout

/-- The blobs of all slots are those of the candidates. -/
theorem map_blob_slots (candidates : List BlobCandidate) :
    (slots candidates).map Slot.blob = candidates.flatMap BlobCandidate.blobs := by
  have firsts : candidates.flatMap BlobCandidate.blobs =
      candidates.zipIdx.flatMap fun entry => entry.1.blobs := by
    conv_lhs => rw [← List.zipIdx_map_fst 0 candidates, List.flatMap_map]
  rw [slots_eq_flatMap, List.map_flatMap, firsts]
  exact List.flatMap_congr fun entry _ => map_blob_slotsOf entry.2 entry.1.blobs

/-- The slots that are visited take the shares of all candidates. -/
theorem sum_visitOrder (candidates : List BlobCandidate) :
    ((visitOrder candidates).map fun slot => slot.blob.shareCount).sum =
      (candidates.map BlobCandidate.shareCount).sum := by
  have listed : ((visitOrder candidates).map fun slot => slot.blob.shareCount).sum =
      ((slots candidates).map fun slot => slot.blob.shareCount).sum :=
    ((List.mergeSort_perm _ _).map _).sum_eq
  have blobs : (slots candidates).map (fun slot => slot.blob.shareCount) =
      candidates.flatMap fun candidate => candidate.blobs.map Blob.shareCount := by
    rw [← List.map_flatMap, ← map_blob_slots, List.map_map]
    rfl
  rw [listed, blobs, List.flatMap_def, List.sum_flatten, List.map_map]
  exact congrArg List.sum (List.map_congr_left fun candidate _ => candidate.shareCount_eq.symm)

end Layout

namespace Estimate

variable {usage : Usage} {consts : AppConsts} {estimate : Estimate}

/-- Twice a width below the largest one is a width too. -/
theorem isValidSquareSize_double (bounded : consts.Bounded) {squareSize : Nat}
    (valid : consts.isValidSquareSize squareSize = true)
    (smaller : squareSize < consts.maxSquareSize) :
    consts.isValidSquareSize (2 * squareSize) = true := by
  obtain ⟨power, least, _⟩ := AppConsts.isValidSquareSize_iff.mp valid
  obtain ⟨exponent, rfl⟩ := (isPowerOfTwo_iff_two_pow squareSize).mp power
  obtain ⟨largest, same⟩ := (isPowerOfTwo_iff_two_pow _).mp bounded.largest
  rw [same] at smaller
  have above : exponent < largest := (Nat.pow_lt_pow_iff_right (by decide)).mp smaller
  have double : 2 * 2 ^ exponent = 2 ^ (exponent + 1) := by
    rw [Nat.pow_succ, Nat.mul_comm]
  rw [double]
  refine AppConsts.isValidSquareSize_iff.mpr ⟨isPowerOfTwo_two_pow _, ?_, ?_⟩
  · rw [← double]
    omega
  · rw [same]
    exact Nat.pow_le_pow_right (by decide) above

end Estimate

namespace Layout

/-- Blobs whose shares take half of a square of width eight or less are packed inside it. -/
theorem packedEnd_le_of_le_eight {squareSize cursor : Nat} {shareCounts : List Nat}
    (power : isPowerOfTwo squareSize = true) (small : squareSize ≤ 8)
    (half : 2 * (cursor + shareCounts.sum) ≤ squareSize * squareSize) :
    packedEnd squareSize cursor shareCounts ≤ squareSize * squareSize := by
  by_cases tiny : squareSize ≤ 4
  · exact Nat.le_trans
      (packedEnd_le_of_le_four (pos_of_isPowerOfTwo power) tiny cursor shareCounts) half
  · have widths : ∀ width < 9, 4 < width → isPowerOfTwo width = true → width = 8 := by decide
    obtain rfl := widths squareSize (by omega) (by omega) power
    exact packedEnd_eight_le half

/-- When the estimated width is not the largest one, its layout removes nothing exactly when the
blobs are packed inside the square. That holds up to width eight, and at every width when all shares
take a third of the square. The layout of twice the width removes nothing. -/
theorem room_of_estimate {settings : ConsensusSettings} {consts : AppConsts}
    (taken : settings.consts = .ok consts) {candidates : List Candidate} {estimate : Estimate}
    (estimated : Estimate.ofCandidates candidates consts = .ok estimate)
    (smaller : estimate.squareSize < consts.maxSquareSize) :
    (∃ layout, finalize? estimate.squareSize estimate.nonReservedStart candidates = some layout ∧
      (layout.removed = [] ↔ packedEnd estimate.squareSize estimate.nonReservedStart
        ((visitOrder (candidates.filterMap Candidate.blob?)).map fun slot =>
          slot.blob.shareCount) ≤ estimate.squareSize * estimate.squareSize) ∧
      (estimate.squareSize ≤ 8 ∨ 3 * (Usage.ofCandidates candidates).shares ≤
        estimate.squareSize * estimate.squareSize → layout.removed = [])) ∧
    consts.isValidSquareSize (2 * estimate.squareSize) = true ∧
    ∃ wider, finalize? (2 * estimate.squareSize) estimate.nonReservedStart candidates =
      some wider ∧ wider.removed = [] := by
  have bounded := ConsensusSettings.bounded_of_consts taken
  obtain ⟨same, found, valid, _, reserved⟩ :=
    Estimate.exists_ofUsage bounded (Estimate.fits_of_ofUsage estimated)
  obtain rfl : estimate = same := Except.ok.inj (estimated.symm.trans found)
  have power := (AppConsts.isValidSquareSize_iff.mp valid).1
  have positive := pos_of_isPowerOfTwo power
  have half := Estimate.half_of_lt estimated smaller
  have shares : (Usage.ofCandidates candidates).shares = estimate.nonReservedStart +
      ((visitOrder (candidates.filterMap Candidate.blob?)).map fun slot =>
        slot.blob.shareCount).sum := by
    rw [sum_visitOrder, ← Usage.blobShares_ofCandidates, reserved]
    rfl
  rw [shares] at half ⊢
  have width : estimate.squareSize ≤ 128 :=
    Nat.le_of_lt (Nat.lt_of_lt_of_le smaller bounded.extended)
  have cells := Nat.mul_le_mul width width
  have words : 4 * (128 * 128) < UInt32.size := by decide
  have double : 2 * estimate.squareSize * (2 * estimate.squareSize) =
      4 * (estimate.squareSize * estimate.squareSize) := by ring
  have long : UInt32.size ≤ 2 ^ 63 := by decide
  have last : UInt32.size + 256 ≤ UInt64.size := by decide
  have small : ∀ candidate ∈ candidates.filterMap Candidate.blob?, ∀ blob ∈ candidate.blobs,
      blob.shareCount ≤ 2 ^ 63 := by
    intro candidate member blob own
    have count := Usage.shareCount_le_shares member own
    omega
  obtain ⟨layout, made⟩ := exists_finalize_of_le positive (by omega)
    (show estimate.nonReservedStart + estimate.squareSize ≤ UInt64.size by omega) candidates small
  obtain ⟨wider, widerMade⟩ := exists_finalize_of_le (show 0 < 2 * estimate.squareSize by omega)
    (by omega) (show estimate.nonReservedStart + 2 * estimate.squareSize ≤ UInt64.size by omega)
    candidates small
  have removes := removed_eq_nil_iff positive (by omega)
    (show estimate.nonReservedStart ≤ estimate.squareSize * estimate.squareSize by omega) made
  have widerRemoves := removed_eq_nil_iff (show 0 < 2 * estimate.squareSize by omega) (by omega)
    (show estimate.nonReservedStart ≤ 2 * estimate.squareSize * (2 * estimate.squareSize) by
      omega) widerMade
  refine ⟨⟨layout, made, removes, fun roomy => removes.mpr ?_⟩,
    Estimate.isValidSquareSize_double bounded valid smaller, wider, widerMade,
    widerRemoves.mpr ?_⟩
  · rcases roomy with small | third
    · exact packedEnd_le_of_le_eight power small half
    · exact Nat.le_trans (packedEnd_le positive _ _) third
  · have reached := packedEnd_le (show 0 < 2 * estimate.squareSize by omega)
      estimate.nonReservedStart ((visitOrder (candidates.filterMap Candidate.blob?)).map
        fun slot => slot.blob.shareCount)
    omega

end Layout

/-- A blob of nine shares. -/
def Blob.nineShares : Blob := ⟨Namespace.lowestUser, List.replicate 3853 0, 0⟩

/-- A blob of five shares in the same namespace. -/
def Blob.fiveShares : Blob := ⟨Namespace.lowestUser, List.replicate 1925 0, 0⟩

/-- A candidate that pays for eight blobs of nine shares and eight of five, by turns. -/
def BlobCandidate.byTurns : BlobCandidate :=
  ⟨[], ⟨.replicate 20 0, [], [], [], []⟩,
    (List.replicate 8 [Blob.nineShares, Blob.fiveShares]).flatten⟩

namespace BlobCandidate

/-- The blobs take nine shares and five, by turns. -/
theorem shareCounts_byTurns :
    byTurns.blobs.map Blob.shareCount = (List.replicate 8 [9, 5]).flatten := by
  have nine : Blob.nineShares.shareCount = 9 := by
    rw [Blob.shareCount, Blob.size, Blob.nineShares, List.length_replicate]
    decide
  have five : Blob.fiveShares.shareCount = 5 := by
    rw [Blob.shareCount, Blob.size, Blob.fiveShares, List.length_replicate]
    decide
  rw [byTurns, List.map_flatten, List.map_replicate, List.map_cons, List.map_singleton, nine, five]

/-- The blobs are visited in the order in which they are listed. -/
theorem shareCounts_visitOrder_byTurns :
    (Layout.visitOrder [byTurns]).map (fun slot => slot.blob.shareCount) =
      (List.replicate 8 [9, 5]).flatten := by
  have blobs : (Layout.slots [byTurns]).map Slot.blob = byTurns.blobs := by
    rw [Layout.map_blob_slots, List.flatMap_singleton]
  have one : ∀ slot ∈ Layout.slots [byTurns], slot.blob.ns = Namespace.lowestUser := by
    intro slot member
    have listed := List.mem_map_of_mem (f := Slot.blob) member
    rw [blobs] at listed
    obtain ⟨pair, inside, own⟩ := List.mem_flatten.mp listed
    rw [List.eq_of_mem_replicate inside] at own
    rcases List.mem_pair.mp own with same | same
    · rw [same]
      rfl
    · rw [same]
      rfl
  have sorted : Layout.visitOrder [byTurns] = Layout.slots [byTurns] := by
    refine List.mergeSort_of_pairwise (List.pairwise_of_forall_mem_list
      fun left memLeft right memRight => decide_eq_true ?_)
    rw [one left memLeft, one right memRight]
    exact Namespace.le_refl _
  have counts := congrArg (List.map Blob.shareCount) blobs
  rw [List.map_map, shareCounts_byTurns] at counts
  rw [sorted]
  exact counts

/-- With one share for the index wrapper, the blobs take less than half of a square of width
sixteen. -/
theorem shares_byTurns : (Usage.ofCandidates [.blob byTurns]).reservedShares = 1 ∧
    (Usage.ofCandidates [.blob byTurns]).shares = 113 := by
  have count : byTurns.blobs.length = 16 := by decide
  have wrapper : byTurns.wrappedLength = 84 := by
    rw [wrappedLength, count]
    rfl
  have own : byTurns.shareCount = 112 := by
    rw [shareCount_eq, shareCounts_byTurns]
    decide
  have delimited : Usage.delimitedLength 84 = 85 := Usage.delimitedLength_of_lt (by decide)
  have usage : Usage.ofCandidates [.blob byTurns] = ⟨0, 85, 112⟩ := by
    rw [Usage.ofCandidates, List.foldl_cons, List.foldl_nil, Usage.add, Usage.contribution,
      wrapper, own, delimited]
    rfl
  rw [usage]
  decide

/-- The estimated width is sixteen. -/
theorem estimate_byTurns :
    Estimate.ofCandidates [.blob byTurns] AppVersion.v3.consts = .ok ⟨16, 1⟩ := by
  obtain ⟨reserved, shares⟩ := shares_byTurns
  have fits : (Usage.ofCandidates [.blob byTurns]).fits AppVersion.v3.consts = true := by
    rw [Usage.fits, shares]
    decide
  have root : ceilSqrt 226 = 16 := by
    have reached := le_ceilSqrt_mul 226
    have least : ceilSqrt 226 ≤ 16 := ceilSqrt_le (by decide)
    by_contra other
    have below : ceilSqrt 226 ≤ 15 := by omega
    have squares := Nat.mul_le_mul below below
    omega
  have width : min (max (blobMinSquareSize (2 * 113)) AppVersion.v3.consts.minSquareSize)
      AppVersion.v3.consts.maxSquareSize = 16 := by
    rw [blobMinSquareSize, root]
    decide
  rw [Estimate.ofCandidates, Estimate.ofUsage_eq_ok, shares, reserved]
  exact ⟨⟨by decide, fits⟩, by decide, by decide, by rw [width]⟩

end BlobCandidate

/-- The blobs by turns are removed from the square of the estimated width, and stay in one that is
twice as wide. -/
theorem Layout.room_of_estimate_byTurns : ∃ layout wider,
    Estimate.ofCandidates [.blob .byTurns] AppVersion.v3.consts = .ok ⟨16, 1⟩ ∧
      finalize? 16 1 [.blob .byTurns] = some layout ∧ layout.removed ≠ [] ∧
      finalize? 32 1 [.blob .byTurns] = some wider ∧ wider.removed = [] := by
  have taken : ConsensusSettings.default.consts = .ok AppVersion.v3.consts := rfl
  have smaller : 16 < AppVersion.v3.consts.maxSquareSize := by decide
  obtain ⟨⟨layout, made, removes, _⟩, _, wider, widerMade, all⟩ :=
    room_of_estimate taken BlobCandidate.estimate_byTurns smaller
  refine ⟨layout, wider, BlobCandidate.estimate_byTurns, made, fun nothing => ?_, widerMade, all⟩
  have packed := removes.mp nothing
  have order : (visitOrder ([Candidate.blob .byTurns].filterMap Candidate.blob?)).map
      (fun slot => slot.blob.shareCount) = (List.replicate 8 [9, 5]).flatten :=
    BlobCandidate.shareCounts_visitOrder_byTurns
  rw [order] at packed
  exact absurd packed (by decide)

end DataSquare
