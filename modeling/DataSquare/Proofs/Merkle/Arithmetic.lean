import DataSquare.Proofs.Merkle.Rebuilt
import DataSquare.Proofs.Outcome

/-!
# The arithmetic of proofs

All numbers in a proof are chosen by whoever sends it, and a verifier computes with numbers of 64
bits. What it computes before it comes to an answer is written down here operation by operation, in
the order of the recursions and with their early ends. Nothing that is computed from a number of
leaves of at most 2⁶³ is too large. A larger one has no power of two of 64 bits above it, so the
first split fails. That is the only way in which the arithmetic of a single proof fails, and it is
reached whenever the other numbers of the proof agree with each other.
-/
namespace DataSquare.Merkle

/-- A power of two of 64 bits is at most 2⁶³. -/
theorem le_maxSplittable {value : Nat} (power : isPowerOfTwo value = true)
    (fits : value < UInt64.size) : value ≤ maxSplittable := by
  obtain ⟨exponent, rfl⟩ := (isPowerOfTwo_iff_two_pow value).mp power
  have whole : 2 ^ exponent < 2 ^ 64 := fits
  have below : exponent < 64 := (Nat.pow_lt_pow_iff_right (by decide)).mp whole
  exact Nat.pow_le_pow_right (by decide) (show exponent ≤ 63 by omega)

/-- An operation on numbers of 64 bits. -/
inductive Operation where
  /-- A sum. -/
  | sum (left right : Nat)
  /-- A difference. -/
  | difference (left right : Nat)
  /-- A difference that does not go below zero. -/
  | excess (left right : Nat)
  /-- Half of a number, rounded down. -/
  | half (value : Nat)
  /-- The least power of two that is not below a number. -/
  | rounded (value : Nat)

namespace Operation

/-- What an operation comes to. -/
def result : Operation → Int
  | .sum left right => (left : Int) + right
  | .difference left right => (left : Int) - right
  | .excess left right => ((left - right : Nat) : Int)
  | .half value => ((value / 2 : Nat) : Int)
  | .rounded value => (ceilPowerOfTwo value : Int)

/-- Whether an operation comes to a number of 64 bits. -/
def Fits (operation : Operation) : Prop :=
  0 ≤ operation.result ∧ operation.result < UInt64.size

instance (operation : Operation) : Decidable operation.Fits := inferInstanceAs (Decidable (_ ∧ _))

/-- A sum fits when it is small enough. -/
@[simp] theorem fits_sum {left right : Nat} :
    (sum left right).Fits ↔ left + right < UInt64.size := by
  simp only [Fits, result]
  omega

/-- A difference fits when it is not below zero and is small enough. -/
@[simp] theorem fits_difference {left right : Nat} :
    (difference left right).Fits ↔ right ≤ left ∧ left - right < UInt64.size := by
  simp only [Fits, result]
  omega

/-- A difference that does not go below zero fits when it is small enough. -/
@[simp] theorem fits_excess {left right : Nat} :
    (excess left right).Fits ↔ left - right < UInt64.size := by
  simp only [Fits, result]
  omega

/-- A half fits when it is small enough. -/
@[simp] theorem fits_half {value : Nat} : (half value).Fits ↔ value / 2 < UInt64.size := by
  simp only [Fits, result]
  omega

/-- The power of two above a number fits when the number is at most 2⁶³. -/
@[simp] theorem fits_rounded {value : Nat} : (rounded value).Fits ↔ value ≤ maxSplittable := by
  have half : maxSplittable < UInt64.size := by decide
  simp only [Fits, result]
  constructor
  · rintro ⟨_, fits⟩
    have bound := le_maxSplittable (isPowerOfTwo_ceilPowerOfTwo value) (by omega)
    exact Nat.le_trans (le_ceilPowerOfTwo value) bound
  · intro small
    have bound : ceilPowerOfTwo value ≤ maxSplittable :=
      ceilPowerOfTwo_le (isPowerOfTwo_two_pow 63) small
    omega

end Operation

/-- All of some operations come to numbers of 64 bits. -/
def AllFit (operations : List Operation) : Prop := ∀ operation ∈ operations, operation.Fits

/-- No operations fit. -/
@[simp] theorem allFit_nil : AllFit [] := List.forall_mem_nil _

/-- An operation and others fit when it does and they do. -/
@[simp] theorem allFit_cons {operation : Operation} {operations : List Operation} :
    AllFit (operation :: operations) ↔ operation.Fits ∧ AllFit operations := List.forall_mem_cons

/-- Operations one after the other fit when both parts do. -/
@[simp] theorem allFit_append {first second : List Operation} :
    AllFit (first ++ second) ↔ AllFit first ∧ AllFit second := List.forall_mem_append

/-- The operations of a split. -/
def splitOperations (count : Nat) : List Operation := [.rounded count, .half (ceilPowerOfTwo count)]

/-- A split fits for at most 2⁶³ leaves. -/
@[simp] theorem allFit_splitOperations {count : Nat} :
    AllFit (splitOperations count) ↔ count ≤ maxSplittable := by
  rw [splitOperations, allFit_cons, allFit_cons, Operation.fits_rounded, Operation.fits_half]
  constructor
  · exact fun fits => fits.1
  · intro small
    have rounded := (ceilPowerOfTwo_le_iff (isPowerOfTwo_two_pow 63)).mpr small
    have room : maxSplittable < UInt64.size := by decide
    have bound : ceilPowerOfTwo count ≤ maxSplittable := rounded
    exact ⟨small, by omega, allFit_nil⟩

section Plain

/-- The operations that find the sides of the siblings of a leaf. -/
def sidesOperations (index total : Nat) : List Operation :=
  if _h : total ≤ 1 then []
  else
    let count := splitPoint total
    splitOperations total ++
      if index < count then sidesOperations index count
      else .difference index count :: .difference total count ::
        sidesOperations (index - count) (total - count)
termination_by total
decreasing_by
  · exact splitPoint_lt (by omega)
  · have : 0 < splitPoint total := splitPoint_pos (by omega)
    omega

/-- The sides of a leaf among a number of leaves of 64 bits are found exactly when it is at most
2⁶³. -/
theorem allFit_sidesOperations {index total : Nat} (inside : index < total)
    (fits : total < UInt64.size) :
    AllFit (sidesOperations index total) ↔ total ≤ maxSplittable := by
  induction total using Nat.strong_induction_on generalizing index with
  | _ total ih =>
    rw [sidesOperations]
    by_cases few : total ≤ 1
    · have small : total ≤ maxSplittable := Nat.le_trans few (by decide)
      simp [few, small]
    · rw [dif_neg few, allFit_append, allFit_splitOperations]
      apply and_iff_left_of_imp
      intro small
      have upper : splitPoint total < total := splitPoint_lt (by omega)
      have lower : 0 < splitPoint total := splitPoint_pos (by omega)
      by_cases left : index < splitPoint total
      · rw [if_pos left]
        exact (ih _ upper left (by omega)).mpr (by omega)
      · rw [if_neg left, allFit_cons, allFit_cons, Operation.fits_difference,
          Operation.fits_difference]
        refine ⟨by omega, by omega, ?_⟩
        exact (ih (total - splitPoint total) (by omega) (by omega) (by omega)).mpr (by omega)

namespace Binary.Proof

/-- The operations with which a proof of an item is checked. -/
def operations (proof : Proof) : List Operation :=
  if proof.total.toNat ≤ proof.index.toNat then []
  else sidesOperations proof.index.toNat proof.total.toNat

/-- The proof is for one of more than 2⁶³ items. -/
def Oversized (proof : Proof) : Prop :=
  proof.index.toNat < proof.total.toNat ∧ maxSplittable < proof.total.toNat

/-- A proof is checked with numbers of 64 bits unless it is for one of too many items. -/
theorem allFit_operations (proof : Proof) : AllFit proof.operations ↔ ¬ proof.Oversized := by
  rw [operations, Oversized]
  by_cases outside : proof.total.toNat ≤ proof.index.toNat
  · rw [if_pos outside]
    simp only [allFit_nil, true_iff]
    omega
  · rw [if_neg outside, allFit_sidesOperations (by omega) proof.total.toNat_lt]
    omega

/-- A proof overflows exactly when it is for one of too many items. -/
theorem verify_eq_overflow (proof : Proof) (root : Digest) (item : Bytes) :
    proof.verify root item = .error .overflow ↔ proof.Oversized := by
  rw [verify, Oversized]
  by_cases outside : proof.total.toNat ≤ proof.index.toNat
  · rw [if_pos outside]
    simp only [Except.error.injEq, reduceCtorEq, false_iff]
    omega
  · rw [if_neg outside]
    by_cases large : maxSplittable < proof.total.toNat
    · rw [if_pos large]
      simp only [true_iff]
      omega
    · rw [if_neg large]
      simp only [large, and_false, iff_false]
      split
      · simp
      · split <;> simp

end Binary.Proof

end Plain

section Namespaced

/-- The operations with which the root over leaves is computed. -/
def rootOperations (count : Nat) : List Operation :=
  if _h : count ≤ 1 then []
  else splitOperations count ++
    (rootOperations (splitPoint count) ++ rootOperations (count - splitPoint count))
termination_by count
decreasing_by
  · exact splitPoint_lt (by omega)
  · have : 0 < splitPoint count := splitPoint_pos (by omega)
    omega

/-- The root over leaves is computed exactly when they are at most 2⁶³. -/
theorem allFit_rootOperations {count : Nat} :
    AllFit (rootOperations count) ↔ count ≤ maxSplittable := by
  induction count using Nat.strong_induction_on with
  | _ count ih =>
    rw [rootOperations]
    by_cases few : count ≤ 1
    · have small : count ≤ maxSplittable := Nat.le_trans few (by decide)
      simp [few, small]
    · have upper : splitPoint count < count := splitPoint_lt (by omega)
      have lower : 0 < splitPoint count := splitPoint_pos (by omega)
      rw [dif_neg few, allFit_append, allFit_append, allFit_splitOperations, ih _ upper,
        ih _ (by omega)]
      omega

variable {start stop low high : Nat} {leaves nodes : List NamespacedHash}

/-- The operations with which the root of the part of a tree is rebuilt. The right part of a split
is only come to when the left one is rebuilt. -/
def rebuildOperations (start stop : Nat) (leaves : List NamespacedHash) (low high : Nat)
    (nodes : List NamespacedHash) : List Operation :=
  if _meets : high ≤ start ∨ stop ≤ low then []
  else if _across : start ≤ low ∧ high ≤ stop then
    .difference low start :: .difference high start :: rootOperations (high - low)
  else
    let count := splitPoint (high - low)
    .difference high low :: (splitOperations (high - low) ++
      .sum low count :: (rebuildOperations start stop leaves low (low + count) nodes ++
        match rebuildRoot start stop leaves low (low + count) nodes with
        | .error _ => []
        | .ok (_, rest) =>
          .sum low count :: rebuildOperations start stop leaves (low + count) high rest))
termination_by high - low
decreasing_by
  · have : splitPoint (high - low) < high - low := splitPoint_lt (by omega)
    omega
  · have : 0 < splitPoint (high - low) := splitPoint_pos (by omega)
    omega

/-- A part of at most 2⁶³ leaves is rebuilt with numbers of 64 bits. -/
theorem allFit_rebuildOperations (ordered : low ≤ high) (fits : high < UInt64.size)
    (small : high - low ≤ maxSplittable) :
    AllFit (rebuildOperations start stop leaves low high nodes) := by
  induction size : high - low using Nat.strong_induction_on generalizing low high nodes with
  | _ size ih =>
    subst size
    rw [rebuildOperations]
    by_cases meets : high ≤ start ∨ stop ≤ low
    · rw [dif_pos meets]
      exact allFit_nil
    · rw [dif_neg meets]
      by_cases across : start ≤ low ∧ high ≤ stop
      · rw [dif_pos across, allFit_cons, allFit_cons, allFit_rootOperations,
          Operation.fits_difference, Operation.fits_difference]
        omega
      · have several := one_lt_of_across meets across
        have upper := splitPoint_lt several
        have lower := splitPoint_pos several
        rw [dif_neg across, allFit_cons, allFit_append, allFit_cons, allFit_append,
          allFit_splitOperations, Operation.fits_difference, Operation.fits_sum]
        refine ⟨by omega, small, by omega, ?_, ?_⟩
        · exact ih _ (by omega) (by omega) (by omega) (by omega) rfl
        · cases rebuildRoot start stop leaves low (low + splitPoint (high - low)) nodes with
          | error cause => exact allFit_nil
          | ok front =>
            dsimp only
            rw [allFit_cons, Operation.fits_sum]
            refine ⟨by omega, ?_⟩
            exact ih _ (by omega) (by omega) (by omega) (by omega) rfl

/-- A part that meets the run is rebuilt so only when it has at most 2⁶³ leaves. -/
theorem le_of_allFit_rebuildOperations (meets : ¬ (high ≤ start ∨ stop ≤ low))
    (fit : AllFit (rebuildOperations start stop leaves low high nodes)) :
    high - low ≤ maxSplittable := by
  rw [rebuildOperations, dif_neg meets] at fit
  by_cases across : start ≤ low ∧ high ≤ stop
  · rw [dif_pos across, allFit_cons, allFit_cons, allFit_rootOperations] at fit
    exact fit.2.2
  · rw [dif_neg across, allFit_cons, allFit_append, allFit_splitOperations] at fit
    exact fit.2.1

/-- Rebuilding a part of at most 2⁶³ leaves does not overflow. -/
theorem failsOnly_rebuildRoot (small : high - low ≤ maxSplittable) :
    FailsOnly (· ≠ .overflow) (rebuildRoot start stop leaves low high nodes) := by
  induction size : high - low using Nat.strong_induction_on generalizing low high nodes with
  | _ size ih =>
    subst size
    rw [rebuildRoot.eq_def]
    by_cases meets : high ≤ start ∨ stop ≤ low
    · rw [if_pos meets]
      cases nodes with
      | nil => exact FailsOnly.error (by decide)
      | cons node rest => exact FailsOnly.ok (node, rest)
    · rw [if_neg meets]
      by_cases across : start ≤ low ∧ high ≤ stop
      · rw [if_pos across]
        exact FailsOnly.ok _
      · have several := one_lt_of_across meets across
        have upper := splitPoint_lt several
        have lower := splitPoint_pos several
        have front : FailsOnly (· ≠ .overflow)
            (rebuildRoot start stop leaves low (low + splitPoint (high - low)) nodes) :=
          ih _ (by omega) (by omega) rfl
        rw [if_neg across, if_neg (show ¬ maxSplittable < high - low by omega)]
        dsimp only
        cases first : rebuildRoot start stop leaves low (low + splitPoint (high - low)) nodes with
        | error cause => exact FailsOnly.error (front cause first)
        | ok left =>
          have back : FailsOnly (· ≠ .overflow)
              (rebuildRoot start stop leaves (low + splitPoint (high - low)) high left.2) :=
            ih _ (by omega) (by omega) rfl
          dsimp only
          cases second : rebuildRoot start stop leaves (low + splitPoint (high - low)) high
            left.2 with
          | error cause => exact FailsOnly.error (back cause second)
          | ok right => exact FailsOnly.ok _

namespace RangeProof

/-- The operations with which a proof of a run of leaves is checked. -/
def operations (proof : RangeProof) (leaves : List NamespacedHash) : List Operation :=
  let start := proof.start.toNat
  let stop := proof.stop.toNat
  let total := proof.total.toNat
  if stop ≤ start ∨ total < stop then []
  else .difference stop start ::
    if leaves.length ≠ stop - start then [.difference stop start]
    else rebuildOperations start stop leaves 0 total proof.nodes

/-- The proof is for a run of some leaves, as many as are given, of more than 2⁶³. -/
structure Oversized (proof : RangeProof) (given : Nat) : Prop where
  /-- There is a leaf in the run. -/
  nonempty : proof.start.toNat < proof.stop.toNat
  /-- The run ends within the leaves. -/
  inside : proof.stop.toNat ≤ proof.total.toNat
  /-- The run is as long as there are leaves given. -/
  count : given = proof.stop.toNat - proof.start.toNat
  /-- The leaves are too many to be split. -/
  large : maxSplittable < proof.total.toNat

/-- The numbers of the proof agree with each other and its leaves are too many. -/
theorem oversized_iff {proof : RangeProof} {given : Nat} : proof.Oversized given ↔
    ¬ (proof.stop.toNat ≤ proof.start.toNat ∨ proof.total.toNat < proof.stop.toNat) ∧
      given = proof.stop.toNat - proof.start.toNat ∧ maxSplittable < proof.total.toNat := by
  constructor
  · rintro ⟨nonempty, inside, count, large⟩
    exact ⟨by omega, count, large⟩
  · rintro ⟨range, count, large⟩
    exact ⟨by omega, by omega, count, large⟩

/-- A proof is checked with numbers of 64 bits unless it is for a run of too many leaves. -/
theorem allFit_operations (proof : RangeProof) (leaves : List NamespacedHash) :
    AllFit (proof.operations leaves) ↔ ¬ proof.Oversized leaves.length := by
  have bound : proof.stop.toNat < UInt64.size := proof.stop.toNat_lt
  have fits : proof.total.toNat < UInt64.size := proof.total.toNat_lt
  rw [operations, oversized_iff]
  by_cases range : proof.stop.toNat ≤ proof.start.toNat ∨ proof.total.toNat < proof.stop.toNat
  · simp [range]
  · have run : (Operation.difference proof.stop.toNat proof.start.toNat).Fits :=
      Operation.fits_difference.mpr (by omega)
    rw [if_neg range, allFit_cons, and_iff_right run, and_iff_right range]
    by_cases count : leaves.length = proof.stop.toNat - proof.start.toNat
    · rw [if_neg (not_not.mpr count), and_iff_right count, not_lt]
      constructor
      · exact le_of_allFit_rebuildOperations (by omega)
      · exact allFit_rebuildOperations (Nat.zero_le _) fits
    · rw [if_pos count]
      simp only [allFit_cons, allFit_nil, run, count, false_and, not_false_eq_true, and_true]

/-- A proof overflows exactly when it is for a run of too many leaves. -/
theorem verifyLeafHashes_eq_overflow (proof : RangeProof) (root : NamespacedHash)
    {leaves : List NamespacedHash} (few : leaves.length ≤ maxSplittable) :
    proof.verifyLeafHashes root leaves = .error .overflow ↔ proof.Oversized leaves.length := by
  rw [verifyLeafHashes, oversized_iff]
  by_cases range : proof.stop.toNat ≤ proof.start.toNat ∨ proof.total.toNat < proof.stop.toNat
  · simp [range]
  · rw [if_neg range, and_iff_right range]
    by_cases count : leaves.length = proof.stop.toNat - proof.start.toNat
    · rw [if_neg (not_not.mpr count), and_iff_right count]
      by_cases large : maxSplittable < proof.total.toNat
      · -- The run is not all of the tree, since as many leaves cannot be given.
        have refused : rebuildRoot proof.start.toNat proof.stop.toNat leaves 0 proof.total.toNat
            proof.nodes = .error .overflow := by
          rw [rebuildRoot.eq_def, if_neg (by omega), if_neg (by omega),
            if_pos (show maxSplittable < proof.total.toNat - 0 from large)]
        simp [refused, large]
      · have rebuilt : FailsOnly (· ≠ .overflow) (rebuildRoot proof.start.toNat proof.stop.toNat
            leaves 0 proof.total.toNat proof.nodes) := failsOnly_rebuildRoot (by omega)
        simp only [large, iff_false]
        split
        · rename_i cause failed
          intro same
          exact rebuilt cause failed (Except.error.inj same)
        · simp
        · split <;> simp
    · simp [count]

end RangeProof

end Namespaced

end DataSquare.Merkle
