import DataSquare.Mempool.Usage
import DataSquare.Proofs.Consensus

/-!
# Totals of candidates

The totals are sums over the candidates, whatever the order in which these came in, and taking
candidates out leaves the totals of the others. Totals that fit the largest square have a width
between the bounds with room for all shares: the least one with room for twice as many, when there
is one.
-/
namespace DataSquare

section Needed

variable {first later : Nat}

/-- More bytes do not take fewer shares. -/
theorem sharesNeeded_mono {low high : Nat} (positive : 0 < later) (ordered : low ≤ high) :
    sharesNeeded first later low ≤ sharesNeeded first later high := by
  unfold sharesNeeded
  have rounded := ceilDiv_mono positive (Nat.sub_le_sub_right ordered first)
  split_ifs <;> omega

/-- Shares hold the bytes they are needed for. -/
theorem le_sharesNeeded_mul {length : Nat} (shorter : first ≤ later) (positive : 0 < later) :
    length ≤ sharesNeeded first later length * later := by
  unfold sharesNeeded
  split
  · omega
  · split
    · omega
    · have reached := le_ceilDiv_mul (length - first) positive
      rw [Nat.add_mul]
      omega

end Needed

/-- More bytes do not take fewer compact shares. -/
theorem compactSharesNeeded_mono {low high : Nat} (ordered : low ≤ high) :
    compactSharesNeeded low ≤ compactSharesNeeded high :=
  sharesNeeded_mono (by decide) ordered

/-- Compact shares are not more than one for each 474 bytes that are begun. -/
theorem compactSharesNeeded_le (length : Nat) : compactSharesNeeded length ≤ length / 474 + 1 := by
  unfold compactSharesNeeded sharesNeeded ceilDiv firstCompactContent laterCompactContent
  split_ifs <;> omega

/-- A candidate takes the shares of all its blobs. -/
theorem BlobCandidate.shareCount_eq (candidate : BlobCandidate) :
    candidate.shareCount = (candidate.blobs.map Blob.shareCount).sum := by
  rw [shareCount, List.sum_eq_foldr, List.foldr_map]

namespace Usage

variable {usage : Usage} {consts : AppConsts}

/-- A short unit has one byte of length in front. -/
theorem delimitedLength_of_lt {length : Nat} (short : length < 128) :
    delimitedLength length = length + 1 := by
  rw [delimitedLength, Varint.size, if_pos short]

/-- Bytes that fit the largest square. -/
theorem bytes_le_of_fits (bounded : consts.Bounded) (fits : usage.fits consts = true) :
    usage.txBytes ≤ 7831552 ∧ usage.wrapperBytes ≤ 7831552 := by
  have room := of_decide_eq_true fits
  have largest := bounded.maxShares_le
  have txHeld : usage.txBytes ≤ usage.txShares * 478 := le_sharesNeeded_mul (by decide) (by decide)
  have wrapperHeld : usage.wrapperBytes ≤ usage.wrapperShares * 478 :=
    le_sharesNeeded_mul (by decide) (by decide)
  rw [shares, reservedShares] at room
  constructor <;> omega

/-- Totals are compared with the number of shares of the largest square when it fits 64 bits. -/
theorem fits?_eq_some_iff {answer : Bool} : usage.fits? consts = some answer ↔
    consts.maxShares < UInt64.size ∧ answer = usage.fits consts := by
  rw [fits?, AppConsts.maxShares?, Option.map_eq_some_iff]
  constructor
  · rintro ⟨capacity, found, rfl⟩
    exact ⟨(word?_eq_some_iff.mp found).1, rfl⟩
  · rintro ⟨small, rfl⟩
    exact ⟨_, word?_eq_some_iff.mpr ⟨small, rfl⟩, rfl⟩

/-- Nothing fits every square. -/
theorem fits_ofCandidates_nil (consts : AppConsts) : (ofCandidates []).fits consts = true := by
  have empty : (ofCandidates []).shares = 0 := by decide
  rw [fits, empty]
  exact decide_eq_true (Nat.zero_le _)

/-- The totals after several candidates are those before with what these take. -/
theorem foldl_add (usage : Usage) (candidates : List Candidate) :
    candidates.foldl add usage =
      ⟨usage.txBytes + (candidates.map fun one => (contribution one).txBytes).sum,
        usage.wrapperBytes + (candidates.map fun one => (contribution one).wrapperBytes).sum,
        usage.blobShares + (candidates.map fun one => (contribution one).blobShares).sum⟩ := by
  induction candidates generalizing usage with
  | nil => rfl
  | cons candidate rest ih =>
    rw [List.foldl_cons, ih]
    simp only [add, List.map_cons, List.sum_cons, Nat.add_assoc]

/-- The totals after taking several candidates out are those before without what these take. -/
theorem foldl_remove (usage : Usage) (candidates : List Candidate) :
    candidates.foldl remove usage =
      ⟨usage.txBytes - (candidates.map fun one => (contribution one).txBytes).sum,
        usage.wrapperBytes - (candidates.map fun one => (contribution one).wrapperBytes).sum,
        usage.blobShares - (candidates.map fun one => (contribution one).blobShares).sum⟩ := by
  induction candidates generalizing usage with
  | nil => rfl
  | cons candidate rest ih =>
    rw [List.foldl_cons, ih]
    simp only [remove, List.map_cons, List.sum_cons, Nat.sub_sub]

/-- What candidates take is what each of them takes together. -/
theorem ofCandidates_eq (candidates : List Candidate) : ofCandidates candidates =
    ⟨(candidates.map fun one => (contribution one).txBytes).sum,
      (candidates.map fun one => (contribution one).wrapperBytes).sum,
      (candidates.map fun one => (contribution one).blobShares).sum⟩ := by
  rw [ofCandidates, foldl_add]
  simp only [zero, Nat.zero_add]

/-- The shares of blobs that candidates take are those of the blob transactions. -/
theorem blobShares_ofCandidates (candidates : List Candidate) :
    (ofCandidates candidates).blobShares =
      ((candidates.filterMap Candidate.blob?).map BlobCandidate.shareCount).sum := by
  rw [ofCandidates_eq]
  dsimp only
  induction candidates with
  | nil => rfl
  | cons candidate rest ih =>
    rw [List.map_cons, List.sum_cons, ih]
    cases candidate with
    | ordinary tx => exact Nat.zero_add _
    | blob content => rfl

/-- A blob takes no more shares than all candidates. -/
theorem shareCount_le_shares {candidates : List Candidate} {content : BlobCandidate} {blob : Blob}
    (member : content ∈ candidates.filterMap Candidate.blob?) (own : blob ∈ content.blobs) :
    blob.shareCount ≤ (ofCandidates candidates).shares := by
  calc blob.shareCount
    _ ≤ (content.blobs.map Blob.shareCount).sum := List.le_sum_of_mem (List.mem_map_of_mem own)
    _ = content.shareCount := content.shareCount_eq.symm
    _ ≤ ((candidates.filterMap Candidate.blob?).map BlobCandidate.shareCount).sum :=
      List.le_sum_of_mem (List.mem_map_of_mem member)
    _ = (ofCandidates candidates).blobShares := (blobShares_ofCandidates candidates).symm
    _ ≤ (ofCandidates candidates).shares := Nat.le_add_left _ _

/-- Taking some of the candidates out leaves the totals of the others. -/
theorem foldl_remove_of_perm {candidates out kept : List Candidate}
    (parts : candidates.Perm (out ++ kept)) :
    out.foldl remove (ofCandidates candidates) = ofCandidates kept := by
  have left : ∀ part : Candidate → Nat,
      (candidates.map part).sum - (out.map part).sum = (kept.map part).sum := by
    intro part
    rw [(parts.map part).sum_eq, List.map_append, List.sum_append, Nat.add_sub_cancel_left]
  rw [foldl_remove, ofCandidates_eq, ofCandidates_eq]
  simp only [left]

end Usage

namespace Estimate

/-- Whether a width between the bounds has room for twice the shares. -/
def Roomy (usage : Usage) (consts : AppConsts) (width : Nat) : Prop :=
  consts.isValidSquareSize width = true ∧ 2 * usage.shares ≤ width * width

variable {usage : Usage} {consts : AppConsts} {estimate : Estimate}

/-- Twice some shares have a smallest square within 64 bits exactly when they are not more than
(2³² - 1)². -/
theorem wantedWidth?_eq_some_iff {shares width : Nat} : wantedWidth? shares = some width ↔
    2 * shares ≤ maxRoot * maxRoot ∧ width = blobMinSquareSize (2 * shares) := by
  have word : maxRoot * maxRoot < UInt64.size := by decide
  rw [wantedWidth?, Nat.mul_comm shares, Option.bind_eq_some_iff]
  constructor
  · rintro ⟨twice, found, smallest⟩
    obtain ⟨_, rfl⟩ := word?_eq_some_iff.mp found
    exact blobMinSquareSize?_eq_some_iff.mp smallest
  · rintro ⟨small, rfl⟩
    exact ⟨_, word?_eq_some_iff.mpr ⟨by omega, rfl⟩,
      blobMinSquareSize?_eq_some_iff.mpr ⟨small, rfl⟩⟩

/-- The estimate for totals that fit the largest square: the smallest square for twice the shares,
moved between the bounds, with the shares of transactions in front. -/
theorem ofUsage_eq_ok : ofUsage usage consts = .ok estimate ↔
    (consts.maxShares < UInt64.size ∧ usage.fits consts = true) ∧
      2 * usage.shares ≤ maxRoot * maxRoot ∧ consts.minSquareSize ≤ consts.maxSquareSize ∧
      estimate = ⟨min (max (blobMinSquareSize (2 * usage.shares)) consts.minSquareSize)
        consts.maxSquareSize, usage.reservedShares⟩ := by
  unfold ofUsage
  constructor
  · intro found
    split at found
    · contradiction
    · contradiction
    · rename_i fits
      obtain ⟨small, fits⟩ := Usage.fits?_eq_some_iff.mp fits
      split at found
      · contradiction
      · rename_i wanted
        obtain ⟨twice, rfl⟩ := wantedWidth?_eq_some_iff.mp wanted
        obtain ⟨ordered, same⟩ := guard_eq_ok.mp found
        exact ⟨⟨small, fits.symm⟩, twice, Nat.le_of_not_lt ordered, (Except.ok.inj same).symm⟩
  · rintro ⟨⟨small, fits⟩, twice, ordered, rfl⟩
    rw [Usage.fits?_eq_some_iff.mpr ⟨small, fits.symm⟩]
    dsimp only
    rw [wantedWidth?_eq_some_iff.mpr ⟨twice, rfl⟩]
    exact if_neg (Nat.not_lt.mpr ordered)

/-- There is a square for candidates only when they fit the largest one. -/
theorem fits_of_ofUsage (found : ofUsage usage consts = .ok estimate) :
    usage.fits consts = true :=
  (ofUsage_eq_ok.mp found).1.2

/-- Under parameters that are taken, twice the shares that fit the largest square are far from 64
bits. -/
theorem twice_le_of_fits (bounded : consts.Bounded) (fits : usage.fits consts = true) :
    2 * usage.shares ≤ maxRoot * maxRoot := by
  have room : usage.shares ≤ consts.maxShares := of_decide_eq_true fits
  have largest := bounded.maxShares_le
  have words : 2 * 16384 ≤ maxRoot * maxRoot := by decide
  omega

/-- There is no estimate exactly for totals that exceed the largest square. -/
theorem ofUsage_eq_error (bounded : consts.Bounded) {cause : EstimateError} :
    ofUsage usage consts = .error cause ↔ consts.maxShares < usage.shares ∧
      cause = .overCapacity usage.shares consts.maxShares := by
  by_cases fits : usage.fits consts = true
  · have found := ofUsage_eq_ok.mpr ⟨⟨bounded.maxShares_lt, fits⟩,
      twice_le_of_fits bounded fits, bounded.ordered, rfl⟩
    rw [found]
    exact iff_of_false (fun failed => nomatch failed)
      fun exceeds => Nat.not_lt.mpr (of_decide_eq_true fits) exceeds.1
  · have exceeds : consts.maxShares < usage.shares := Nat.lt_of_not_le fun room =>
      fits (decide_eq_true room)
    rw [ofUsage, Usage.fits?_eq_some_iff.mpr ⟨bounded.maxShares_lt,
      (Bool.eq_false_iff.mpr fits).symm⟩, Except.error.injEq, eq_comm]
    exact (and_iff_right exceeds).symm

/-- A width is roomy exactly when it is a power of two between the bounds that is not below the
width of the smallest square for twice the shares. -/
theorem roomy_iff {width : Nat} : Roomy usage consts width ↔ isPowerOfTwo width = true ∧
    max (blobMinSquareSize (2 * usage.shares)) consts.minSquareSize ≤ width ∧
      width ≤ consts.maxSquareSize := by
  rw [Roomy, AppConsts.isValidSquareSize_iff, Nat.max_le]
  constructor
  · rintro ⟨⟨power, least, largest⟩, room⟩
    exact ⟨power, ⟨(blobMinSquareSize_le_iff power).mpr room, least⟩, largest⟩
  · rintro ⟨power, ⟨room, least⟩, largest⟩
    exact ⟨⟨power, least, largest⟩, (blobMinSquareSize_le_iff power).mp room⟩

/-- The estimated width is the least roomy one, or the largest width when none is roomy. -/
theorem isLeast_or_largest (bounded : consts.Bounded)
    (found : ofUsage usage consts = .ok estimate) :
    IsLeast {width | Roomy usage consts width} estimate.squareSize ∨
      (∀ width, ¬ Roomy usage consts width) ∧
        estimate.squareSize = consts.maxSquareSize := by
  obtain ⟨_, _, _, rfl⟩ := ofUsage_eq_ok.mp found
  dsimp only
  by_cases narrow : max (blobMinSquareSize (2 * usage.shares)) consts.minSquareSize ≤
      consts.maxSquareSize
  · left
    rw [Nat.min_eq_left narrow]
    constructor
    · have power := isPowerOfTwo_max (isPowerOfTwo_blobMinSquareSize (2 * usage.shares))
        bounded.least
      exact roomy_iff.mpr ⟨power, Nat.le_refl _, narrow⟩
    · intro width roomy
      exact (roomy_iff.mp roomy).2.1
  · right
    constructor
    · intro width roomy
      obtain ⟨_, wanted, largest⟩ := roomy_iff.mp roomy
      omega
    · exact Nat.min_eq_right (by omega)

/-- Totals that fit the largest square have a square with room for all shares. -/
theorem exists_ofUsage (bounded : consts.Bounded) (fits : usage.fits consts = true) :
    ∃ estimate, ofUsage usage consts = .ok estimate ∧
      consts.isValidSquareSize estimate.squareSize = true ∧
      usage.shares ≤ estimate.squareSize * estimate.squareSize ∧
      estimate.nonReservedStart = usage.reservedShares := by
  have found := ofUsage_eq_ok.mpr ⟨⟨bounded.maxShares_lt, fits⟩, twice_le_of_fits bounded fits,
    bounded.ordered, rfl⟩
  rcases isLeast_or_largest bounded found with least | ⟨_, largest⟩
  · obtain ⟨valid, room⟩ := least.1
    exact ⟨_, found, valid, by omega, rfl⟩
  · have valid : consts.isValidSquareSize consts.maxSquareSize = true :=
      AppConsts.isValidSquareSize_iff.mpr ⟨bounded.largest, bounded.ordered, Nat.le_refl _⟩
    rw [← largest] at valid
    refine ⟨_, found, valid, ?_, rfl⟩
    rw [largest]
    exact of_decide_eq_true fits

/-- An estimate below the largest width leaves room for twice the shares. -/
theorem half_of_lt (found : ofUsage usage consts = .ok estimate)
    (smaller : estimate.squareSize < consts.maxSquareSize) :
    2 * usage.shares ≤ estimate.squareSize * estimate.squareSize := by
  obtain ⟨_, _, _, rfl⟩ := ofUsage_eq_ok.mp found
  dsimp only at smaller ⊢
  have wanted : blobMinSquareSize (2 * usage.shares) ≤
      min (max (blobMinSquareSize (2 * usage.shares)) consts.minSquareSize)
        consts.maxSquareSize := by omega
  exact Nat.le_trans (le_blobMinSquareSize_mul _) (Nat.mul_le_mul wanted wanted)

/-- Under parameters that are taken, the shares of transactions are not more than all shares, and
all shares go into the estimated square. -/
theorem nonReservedStart_le (bounded : consts.Bounded)
    (found : ofUsage usage consts = .ok estimate) :
    estimate.nonReservedStart ≤ usage.shares ∧
      usage.shares ≤ estimate.squareSize * estimate.squareSize := by
  obtain ⟨same, settled, _, room, start⟩ := exists_ofUsage bounded (fits_of_ofUsage found)
  obtain rfl := Except.ok.inj (settled.symm.trans found)
  rw [start, Usage.shares]
  rw [Usage.shares] at room
  exact ⟨Nat.le_add_right _ _, room⟩

/-- Under parameters that are taken, candidates have an estimate unless their shares are more than
the largest square has. Its width is then the least power of two between the bounds with room for
twice the shares, or the largest width when there is none, and either way holds all shares. -/
theorem leastWidth_of_candidates {settings : ConsensusSettings}
    (taken : settings.consts = .ok consts) (candidates : List Candidate) :
    ((∃ cause, ofCandidates candidates consts = .error cause) ↔
      consts.maxSquareSize * consts.maxSquareSize < (Usage.ofCandidates candidates).shares) ∧
    ∀ estimate, ofCandidates candidates consts = .ok estimate →
      (IsLeast {width | Roomy (Usage.ofCandidates candidates) consts width} estimate.squareSize ∨
        (∀ width, ¬ Roomy (Usage.ofCandidates candidates) consts width) ∧
          estimate.squareSize = consts.maxSquareSize) ∧
      estimate.nonReservedStart ≤ (Usage.ofCandidates candidates).shares ∧
      (Usage.ofCandidates candidates).shares ≤ estimate.squareSize * estimate.squareSize := by
  have bounded := ConsensusSettings.bounded_of_consts taken
  constructor
  · constructor
    · rintro ⟨cause, failed⟩
      exact ((ofUsage_eq_error bounded).mp failed).1
    · intro exceeds
      exact ⟨_, (ofUsage_eq_error bounded).mpr ⟨exceeds, rfl⟩⟩
  · intro estimate found
    exact ⟨isLeast_or_largest bounded found, nonReservedStart_le bounded found⟩

/-- Eight shares take a square of width four with the default parameters: twice as many are exactly
the shares of this square. -/
theorem leastWidth_of_eight_shares :
    ConsensusSettings.default.consts = .ok AppVersion.v3.consts ∧
      (Usage.ofCandidates [.ordinary (List.replicate 3818 0)]).shares = 8 ∧
      ∃ estimate, ofCandidates [.ordinary (List.replicate 3818 0)] AppVersion.v3.consts =
        .ok estimate ∧ estimate.squareSize = 4 := by
  have taken : ConsensusSettings.default.consts = .ok AppVersion.v3.consts := by decide
  have groups : Varint.size 3818 = 2 := by simp [Varint.size]
  have eight : (Usage.ofCandidates [.ordinary (List.replicate 3818 0)]).shares = 8 := by
    simp only [Usage.ofCandidates_eq, List.map_cons, List.map_nil, Usage.contribution,
      Usage.delimitedLength, List.length_replicate, groups]
    decide
  obtain ⟨failing, settled⟩ :=
    leastWidth_of_candidates taken [.ordinary (List.replicate 3818 0)]
  rw [eight] at failing settled
  refine ⟨taken, eight, ?_⟩
  cases found : ofCandidates [.ordinary (List.replicate 3818 0)] AppVersion.v3.consts with
  | error cause => exact absurd (failing.mp ⟨cause, found⟩) (by decide)
  | ok estimate =>
    have four : Roomy (Usage.ofCandidates [.ordinary (List.replicate 3818 0)])
        AppVersion.v3.consts 4 := ⟨by decide, by rw [eight]⟩
    refine ⟨estimate, rfl, ?_⟩
    rcases (settled estimate found).1 with ⟨roomy, least⟩ | ⟨refused, _⟩
    · have below : estimate.squareSize ≤ 4 := least four
      have room : 2 * 8 ≤ estimate.squareSize * estimate.squareSize := eight ▸ roomy.2
      have above : ¬ estimate.squareSize ≤ 3 := fun narrow =>
        absurd (Nat.mul_le_mul narrow narrow) (by omega)
      omega
    · exact absurd four (refused 4)

end Estimate

end DataSquare
