import DataSquare.Proofs.Inclusion.ShareProof
import DataSquare.Proofs.Merkle.Arithmetic

/-!
# The arithmetic of row and share proofs

A row proof counts its rows before it compares them with anything, so it overflows when its last row
is the last number of 64 bits. Otherwise it does not: its rows and the numbers of leaves in it are
those of a header with a power of two of roots. A share proof whose rows are accepted overflows at
the first row whose run of shares is labelled with too many leaves, if the rows before it are
accepted.
-/
namespace DataSquare

open Merkle

/-- Whether a proof is refused because a number does not fit 64 bits. -/
def ProveError.isOverflow : ProveError → Bool
  | .overflow => true
  | .root .overflow => true
  | .row .overflow => true
  | _ => false

/-- A check comes to a number that does not fit 64 bits. -/
def Overflows (check : Except ProveError Unit) : Prop :=
  ∃ cause, check = .error cause ∧ cause.isOverflow = true

/-- A check that passes does not overflow. -/
@[simp] theorem not_overflows_ok (passed : Unit) : ¬ Overflows (.ok passed) := by
  rintro ⟨cause, failed, _⟩
  contradiction

/-- A check that fails overflows when its cause is that. -/
@[simp] theorem overflows_error {cause : ProveError} :
    Overflows (.error cause) ↔ cause.isOverflow = true := by
  simp [Overflows]

namespace RowProof

/-- The operations with which roots are checked against consecutive rows. The next row is counted
before it is known whether there is one. -/
def rowsOperations (dataRoot : Digest) (leaves : UInt64) :
    Nat → List (NamespacedHash × Binary.Proof) → List Operation
  | row, [] => [.sum row 1]
  | row, (root, proof) :: rest =>
    .sum row 1 ::
      if proof.index.toNat ≠ row ∨ proof.total ≠ leaves then []
      else proof.operations ++
        if proof.verify dataRoot root.bytes = .ok () then
          rowsOperations dataRoot leaves (row + 1) rest
        else []

variable {dataRoot : Digest} {leaves : UInt64} {row : Nat}
  {parts : List (NamespacedHash × Binary.Proof)}

/-- Rows of a header of at most 2⁶³ roots are checked with numbers of 64 bits. -/
theorem allFit_rowsOperations (small : leaves.toNat ≤ maxSplittable)
    (room : row + parts.length + 1 < UInt64.size) :
    AllFit (rowsOperations dataRoot leaves row parts) := by
  induction parts generalizing row with
  | nil =>
    rw [rowsOperations, allFit_cons, Operation.fits_sum]
    exact ⟨by omega, allFit_nil⟩
  | cons part rest ih =>
    obtain ⟨root, proof⟩ := part
    rw [List.length_cons] at room
    rw [rowsOperations, allFit_cons, Operation.fits_sum]
    refine ⟨by omega, ?_⟩
    by_cases label : proof.index.toNat ≠ row ∨ proof.total ≠ leaves
    · rw [if_pos label]
      exact allFit_nil
    · rw [if_neg label, allFit_append, Binary.Proof.allFit_operations]
      constructor
      · rintro ⟨_, large⟩
        simp only [ne_eq, not_or, not_not] at label
        rw [label.2] at large
        omega
      · by_cases verified : proof.verify dataRoot root.bytes = .ok ()
        · rw [if_pos verified]
          exact ih (by omega)
        · rw [if_neg verified]
          exact allFit_nil

/-- Nor does their check overflow. -/
theorem not_overflows_checkRows (small : leaves.toNat ≤ maxSplittable) :
    ¬ Overflows (checkRows dataRoot leaves row parts) := by
  induction parts generalizing row with
  | nil => simp [checkRows]
  | cons part rest ih =>
    obtain ⟨root, proof⟩ := part
    rw [checkRows]
    by_cases label : proof.index.toNat ≠ row ∨ proof.total ≠ leaves
    · simp [label, ProveError.isOverflow]
    · rw [if_neg label]
      simp only [ne_eq, not_or, not_not] at label
      cases verified : proof.verify dataRoot root.bytes with
      | ok _ => exact ih
      | error cause =>
        rw [overflows_error]
        intro overflow
        obtain rfl : cause = .overflow := by
          cases cause <;> simp_all [ProveError.isOverflow]
        have large := ((proof.verify_eq_overflow dataRoot root.bytes).mp verified).2
        rw [label.2] at large
        omega

/-- The operations with which a row proof is checked. -/
def operations (proof : RowProof) (dataRoot : Digest) : List Operation :=
  let startRow := proof.startRow.toNat
  let endRow := proof.endRow.toNat
  let rows := endRow + 1 - startRow
  .sum endRow 1 :: .excess (endRow + 1) startRow ::
    if proof.rowRoots.length ≠ rows ∨ proof.proofs.length ≠ rows then []
    else if endRow < startRow ∨ isPowerOfTwo proof.total.toNat = false then []
    else .half proof.total.toNat ::
      if proof.total.toNat / 2 ≤ endRow then []
      else rowsOperations dataRoot proof.total startRow (proof.rowRoots.zip proof.proofs)

/-- A row proof is checked with numbers of 64 bits unless its last row is the last of them. -/
theorem allFit_operations (proof : RowProof) (dataRoot : Digest) :
    AllFit (proof.operations dataRoot) ↔ proof.endRow.toNat + 1 < UInt64.size := by
  have fits : proof.total.toNat < UInt64.size := proof.total.toNat_lt
  rw [operations]
  rw [allFit_cons, Operation.fits_sum]
  apply and_iff_left_of_imp
  intro last
  rw [allFit_cons, Operation.fits_excess]
  refine ⟨by omega, ?_⟩
  split
  · exact allFit_nil
  · rename_i lengths
    split
    · exact allFit_nil
    · rename_i range
      simp only [not_or, Bool.not_eq_false] at range
      have small := le_maxSplittable range.2 fits
      have half : maxSplittable = UInt64.size / 2 := rfl
      rw [allFit_cons, Operation.fits_half]
      refine ⟨by omega, ?_⟩
      split
      · exact allFit_nil
      · apply allFit_rowsOperations small
        rw [List.length_zip]
        omega

/-- A row proof overflows exactly when its last row is the last number of 64 bits. -/
theorem overflows_verify (proof : RowProof) (dataRoot : Digest) :
    Overflows (proof.verify dataRoot) ↔ UInt64.size ≤ proof.endRow.toNat + 1 := by
  have fits : proof.total.toNat < UInt64.size := proof.total.toNat_lt
  rw [verify, ← total]
  dsimp only
  by_cases last : UInt64.size ≤ proof.endRow.toNat + 1
  · simp [last, ProveError.isOverflow]
  · rw [if_neg last]
    simp only [last, iff_false]
    split
    · simp [ProveError.isOverflow]
    · split
      · simp [ProveError.isOverflow]
      · rename_i range
        simp only [not_or, Bool.not_eq_false] at range
        exact not_overflows_checkRows (le_maxSplittable range.2.1 fits)

end RowProof

namespace ShareProof

variable {ns : Namespace} {parts : List (RangeProof × NamespacedHash)} {data : List Bytes}

/-- The operations with which data are checked against the proofs of rows. -/
def sharesOperations (ns : Namespace) :
    List (RangeProof × NamespacedHash) → List Bytes → List Operation
  | [], _ => []
  | (proof, root) :: rest, data =>
    let count := proof.stop.toNat - proof.start.toNat
    .excess proof.stop.toNat proof.start.toNat ::
      if data.length < count then []
      else proof.operations ((data.take count).map (NamespacedHash.leaf ns)) ++
        if proof.verifyInclusion root ns (data.take count) = .ok () then
          sharesOperations ns rest (data.drop count)
        else []

/-- The operations with which a share proof is checked. -/
def operations (proof : ShareProof) (dataRoot : Digest) : List Operation :=
  proof.rowProof.operations dataRoot ++
    if proof.rowProof.verify dataRoot = .ok () ∧
        proof.shareProofs.length = proof.rowProof.rowRoots.length then
      sharesOperations proof.ns (proof.shareProofs.zip proof.rowProof.rowRoots) proof.data
    else []

/-- A row is come to whose run of shares is labelled with too many leaves. -/
def ReachesOversized (ns : Namespace) (parts : List (RangeProof × NamespacedHash))
    (data : List Bytes) : Prop :=
  ∃ (row : Nat) (part : RangeProof × NamespacedHash) (chunk : List Bytes),
    parts[row]? = some part ∧ (rowData (parts.map Prod.fst) data)[row]? = some chunk ∧
      part.1.Oversized chunk.length ∧
      ∀ earlier < row, ∀ (other : RangeProof × NamespacedHash) (own : List Bytes),
        parts[earlier]? = some other → (rowData (parts.map Prod.fst) data)[earlier]? = some own →
          other.1.verifyInclusion other.2 ns own = .ok ()

/-- No row is come to when there are none. -/
theorem not_reachesOversized_nil : ¬ ReachesOversized ns [] data := by
  rintro ⟨row, part, _, found, _⟩
  contradiction

/-- A row that is come to is the first one, or one of the others after the first one is
accepted. -/
theorem reachesOversized_cons {proof : RangeProof} {root : NamespacedHash} :
    ReachesOversized ns ((proof, root) :: parts) data ↔
      proof.Oversized (data.take (proof.stop.toNat - proof.start.toNat)).length ∨
      (proof.verifyInclusion root ns (data.take (proof.stop.toNat - proof.start.toNat)) = .ok () ∧
        ReachesOversized ns parts (data.drop (proof.stop.toNat - proof.start.toNat))) := by
  constructor
  · rintro ⟨row, part, chunk, found, cut, oversized, before⟩
    cases row with
    | zero =>
      obtain rfl := Option.some.inj found
      obtain rfl := Option.some.inj cut
      exact .inl oversized
    | succ row =>
      refine .inr ⟨before 0 (Nat.succ_pos row) _ _ rfl rfl, row, part, chunk, found, cut,
        oversized, ?_⟩
      intro earlier less
      exact before (earlier + 1) (Nat.succ_lt_succ less)
  · rintro (oversized | ⟨verified, row, part, chunk, found, cut, oversized, before⟩)
    · exact ⟨0, _, _, rfl, rfl, oversized, fun _ less => absurd less (Nat.not_lt_zero _)⟩
    · refine ⟨row + 1, part, chunk, found, cut, oversized, ?_⟩
      intro earlier less other own listed piece
      cases earlier with
      | zero =>
        obtain rfl := Option.some.inj listed
        obtain rfl := Option.some.inj piece
        exact verified
      | succ earlier => exact before earlier (Nat.lt_of_succ_lt_succ less) other own listed piece

/-- A row for which there are too few data left is neither accepted nor labelled with too many
leaves. -/
theorem not_reachesOversized_of_short {proof : RangeProof} {root : NamespacedHash}
    (short : data.length < proof.stop.toNat - proof.start.toNat) :
    ¬ ReachesOversized ns ((proof, root) :: parts) data := by
  have fewer : (data.take (proof.stop.toNat - proof.start.toNat)).length ≠
      proof.stop.toNat - proof.start.toNat := by
    rw [List.length_take]
    omega
  rw [reachesOversized_cons]
  rintro (oversized | ⟨verified, _⟩)
  · exact fewer oversized.count
  · exact fewer (length_of_verifyInclusion verified).2

/-- Data are checked with numbers of 64 bits unless a row is come to that is labelled with too many
leaves. -/
theorem allFit_sharesOperations :
    AllFit (sharesOperations ns parts data) ↔ ¬ ReachesOversized ns parts data := by
  induction parts generalizing data with
  | nil => simp [sharesOperations, not_reachesOversized_nil]
  | cons part rest ih =>
    obtain ⟨proof, root⟩ := part
    have fits : proof.stop.toNat < UInt64.size := proof.stop.toNat_lt
    rw [sharesOperations]
    rw [allFit_cons, Operation.fits_excess, and_iff_right (by omega)]
    by_cases short : data.length < proof.stop.toNat - proof.start.toNat
    · simp [short, not_reachesOversized_of_short short]
    · rw [if_neg short, allFit_append, RangeProof.allFit_operations, List.length_map,
        reachesOversized_cons, not_or]
      apply and_congr_right
      intro _
      by_cases verified : proof.verifyInclusion root ns
          (data.take (proof.stop.toNat - proof.start.toNat)) = .ok ()
      · simp [verified, ih]
      · simp [verified]

/-- The check of data overflows exactly when a row is come to that is labelled with too many
leaves. -/
theorem overflows_checkShares (few : data.length ≤ maxSplittable) :
    Overflows (checkShares ns parts data) ↔ ReachesOversized ns parts data := by
  induction parts generalizing data with
  | nil => cases data <;> simp [checkShares, not_reachesOversized_nil, ProveError.isOverflow]
  | cons part rest ih =>
    obtain ⟨proof, root⟩ := part
    rw [checkShares]
    by_cases short : data.length < proof.stop.toNat - proof.start.toNat
    · simp [short, not_reachesOversized_of_short short, ProveError.isOverflow]
    · rw [if_neg short, reachesOversized_cons]
      have bound : ((data.take (proof.stop.toNat - proof.start.toNat)).map
          (NamespacedHash.leaf ns)).length ≤ maxSplittable := by
        rw [List.length_map, List.length_take]
        omega
      have own := proof.verifyLeafHashes_eq_overflow root bound
      rw [List.length_map] at own
      rw [← own, ← RangeProof.verifyInclusion]
      cases proof.verifyInclusion root ns
          (data.take (proof.stop.toNat - proof.start.toNat)) with
      | ok _ =>
        have left : (data.drop (proof.stop.toNat - proof.start.toNat)).length ≤ maxSplittable := by
          rw [List.length_drop]
          omega
        simp [ih left]
      | error cause => cases cause <;> simp [ProveError.isOverflow]

/-- The proof of the rows overflows, or the rows are accepted and one of them is come to that is
labelled with too many leaves. -/
def Oversized (proof : ShareProof) (dataRoot : Digest) : Prop :=
  UInt64.size ≤ proof.rowProof.endRow.toNat + 1 ∨
    (proof.rowProof.verify dataRoot = .ok () ∧
      proof.shareProofs.length = proof.rowProof.rowRoots.length ∧
      ReachesOversized proof.ns (proof.shareProofs.zip proof.rowProof.rowRoots) proof.data)

/-- A share proof is checked with numbers of 64 bits unless a number in it is too large. -/
theorem allFit_operations (proof : ShareProof) (dataRoot : Digest) :
    AllFit (proof.operations dataRoot) ↔ ¬ proof.Oversized dataRoot := by
  rw [operations, Oversized, allFit_append, RowProof.allFit_operations, not_or, Nat.not_le]
  apply and_congr_right
  intro _
  by_cases rows : proof.rowProof.verify dataRoot = .ok () ∧
      proof.shareProofs.length = proof.rowProof.rowRoots.length
  · rw [if_pos rows, allFit_sharesOperations]
    simp [rows]
  · rw [if_neg rows]
    simp only [allFit_nil, true_iff]
    exact fun accepted => rows ⟨accepted.1, accepted.2.1⟩

/-- A share proof overflows exactly when a number in it is too large. -/
theorem overflows_verify (proof : ShareProof) (dataRoot : Digest)
    (few : proof.data.length ≤ maxSplittable) :
    Overflows (proof.verify dataRoot) ↔ proof.Oversized dataRoot := by
  have rows := proof.rowProof.overflows_verify dataRoot
  rw [verify, Oversized, ← rows]
  cases proof.rowProof.verify dataRoot with
  | error cause => simp
  | ok _ =>
    by_cases count : proof.shareProofs.length = proof.rowProof.rowRoots.length
    · simp [count, overflows_checkShares few]
    · simp [count, ProveError.isOverflow]

end ShareProof

/-- Which proofs make their verifier compute a number that does not fit 64 bits, whatever numbers of
64 bits stand in them. All that is computed for a plain proof or a proof of a run fits unless it is
for one of more than 2⁶³ leaves; for a row proof unless its last row is the last number of 64 bits;
for a share proof unless its row proof is such a one, or a proof of a run that is come to. Those are
also the proofs whose check overflows. -/
theorem allFit_iff_and_overflows_iff (plain : Binary.Proof) (run : RangeProof) (rows : RowProof)
    (proof : ShareProof) (dataRoot : Digest) (item : Bytes) (root : NamespacedHash)
    (leaves : List NamespacedHash) :
    ((AllFit plain.operations ↔ ¬ plain.Oversized) ∧
      (plain.verify dataRoot item = .error .overflow ↔ plain.Oversized)) ∧
    ((AllFit (run.operations leaves) ↔ ¬ run.Oversized leaves.length) ∧
      (leaves.length ≤ maxSplittable →
        (run.verifyLeafHashes root leaves = .error .overflow ↔ run.Oversized leaves.length))) ∧
    ((AllFit (rows.operations dataRoot) ↔ rows.endRow.toNat + 1 < UInt64.size) ∧
      (Overflows (rows.verify dataRoot) ↔ UInt64.size ≤ rows.endRow.toNat + 1)) ∧
    (AllFit (proof.operations dataRoot) ↔ ¬ proof.Oversized dataRoot) ∧
      (proof.data.length ≤ maxSplittable →
        (Overflows (proof.verify dataRoot) ↔ proof.Oversized dataRoot)) := by
  refine ⟨⟨?_, ?_⟩, ⟨?_, ?_⟩, ⟨?_, ?_⟩, ?_, ?_⟩
  · exact plain.allFit_operations
  · exact plain.verify_eq_overflow dataRoot item
  · exact run.allFit_operations leaves
  · exact run.verifyLeafHashes_eq_overflow root
  · exact rows.allFit_operations dataRoot
  · exact rows.overflows_verify dataRoot
  · exact proof.allFit_operations dataRoot
  · exact proof.overflows_verify dataRoot

/-- One leaf of 2⁶³ + 1 is too many for a plain proof and for a run, the last number of 64 bits is
too large for a row, and with that row a share proof overflows. -/
theorem allFit_iff_and_overflows_iff_at_large_numbers :
    ¬ AllFit (Binary.Proof.mk 0 9223372036854775809 []).operations ∧
      (RangeProof.mk 0 1 9223372036854775809 []).verifyLeafHashes .empty [.empty] =
        .error .overflow ∧
      ¬ AllFit (RowProof.operations ⟨[], [], 1, 18446744073709551615⟩ (.replicate 32 0)) ∧
      Overflows (ShareProof.verify
        ⟨[], .lowestUser, [], ⟨[], [], 1, 18446744073709551615⟩⟩ (.replicate 32 0)) := by
  obtain ⟨⟨plain, _⟩, ⟨_, run⟩, ⟨rows, _⟩, _, shares⟩ := allFit_iff_and_overflows_iff
    ⟨0, 9223372036854775809, []⟩ ⟨0, 1, 9223372036854775809, []⟩
    ⟨[], [], 1, 18446744073709551615⟩
    ⟨[], .lowestUser, [], ⟨[], [], 1, 18446744073709551615⟩⟩ (.replicate 32 0) [] .empty [.empty]
  refine ⟨?_, ?_, ?_, ?_⟩
  · rw [plain, not_not]
    exact ⟨by decide, by decide⟩
  · apply (run (by decide)).mpr
    exact ⟨by decide, by decide, by decide, by decide⟩
  · rw [rows]
    decide
  · apply (shares (by decide)).mpr
    exact .inl (by decide)

end DataSquare
