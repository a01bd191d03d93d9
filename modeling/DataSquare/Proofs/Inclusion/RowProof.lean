import DataSquare.Inclusion.RowProof
import DataSquare.Proofs.Merkle.BinaryProof
import DataSquare.Proofs.Square.Binding
import DataSquare.Proofs.Square.Split

/-!
# Row proofs

An accepted row proof is about the rows it is labelled with. All its parts are labelled with one
number of leaves, a power of two whose lower half holds the rows, and a header of a square whose
width is a power of two has as many leaves as that. So each root stands in the header at the
position of its row, and rows leave nothing to choose: their roots with the proofs that are made for
them are accepted, and nothing else is.
-/
namespace DataSquare

open Merkle

namespace RowProof

/-- Rows are accepted exactly when each root is proven at its position. -/
theorem checkRows_eq_ok {dataRoot : Digest} {leaves : UInt64} {row : Nat}
    {parts : List (NamespacedHash × Binary.Proof)} :
    checkRows dataRoot leaves row parts = .ok () ↔
      ∀ (offset : Nat) (root : NamespacedHash) (proof : Binary.Proof),
        parts[offset]? = some (root, proof) → proof.index.toNat = row + offset ∧
          proof.total = leaves ∧ proof.verify dataRoot root.bytes = .ok () := by
  induction parts generalizing row with
  | nil => simp [checkRows]
  | cons part parts ih =>
    obtain ⟨own, first⟩ := part
    have later : (∀ (offset : Nat) (root : NamespacedHash) (proof : Binary.Proof),
        ((own, first) :: parts)[offset]? = some (root, proof) → proof.index.toNat = row + offset ∧
          proof.total = leaves ∧ proof.verify dataRoot root.bytes = .ok ()) ↔
        (first.index.toNat = row ∧ first.total = leaves ∧
          first.verify dataRoot own.bytes = .ok ()) ∧
        ∀ (offset : Nat) (root : NamespacedHash) (proof : Binary.Proof),
          parts[offset]? = some (root, proof) → proof.index.toNat = row + 1 + offset ∧
            proof.total = leaves ∧ proof.verify dataRoot root.bytes = .ok () := by
      constructor
      · intro each
        refine ⟨each 0 own first rfl, fun offset root proof found => ?_⟩
        obtain ⟨position, rest⟩ := each (offset + 1) root proof found
        exact ⟨by omega, rest⟩
      · rintro ⟨head, tail⟩ offset root proof found
        cases offset with
        | zero =>
          obtain ⟨rfl, rfl⟩ := Prod.mk.inj (Option.some.inj found)
          exact head
        | succ offset =>
          obtain ⟨position, rest⟩ := tail offset root proof found
          exact ⟨by omega, rest⟩
    rw [later, ← ih, checkRows]
    by_cases label : first.index.toNat ≠ row ∨ first.total ≠ leaves
    · rw [if_pos label]
      simp only [reduceCtorEq, false_iff]
      rintro ⟨⟨position, total, _⟩, _⟩
      exact label.elim (fun wrong => wrong position) fun wrong => wrong total
    · rw [if_neg label]
      simp only [ne_eq, not_or, Decidable.not_not] at label
      cases first.verify dataRoot own.bytes with
      | error cause => simp
      | ok _ => simp [label]

/-- The number of leaves of the header that the first proof is labelled with. -/
def total (proof : RowProof) : UInt64 := (proof.proofs.head?.map Binary.Proof.total).getD 0

/-- A row proof is accepted exactly when it has a root and a proof for each row, its rows are in
the lower half of a number of leaves that is a power of two, and each root is proven at its
position. -/
theorem verify_eq_ok {proof : RowProof} {dataRoot : Digest} :
    proof.verify dataRoot = .ok () ↔ proof.endRow.toNat + 1 < UInt64.size ∧
      (proof.rowRoots.length = proof.endRow.toNat + 1 - proof.startRow.toNat ∧
        proof.proofs.length = proof.endRow.toNat + 1 - proof.startRow.toNat) ∧
      (proof.startRow.toNat ≤ proof.endRow.toNat ∧ isPowerOfTwo proof.total.toNat = true ∧
        proof.endRow.toNat < proof.total.toNat / 2) ∧
      checkRows dataRoot proof.total proof.startRow.toNat (proof.rowRoots.zip proof.proofs) =
        .ok () := by
  unfold verify
  rw [← total]
  dsimp only
  by_cases large : UInt64.size ≤ proof.endRow.toNat + 1
  · rw [if_pos large]
    simp only [reduceCtorEq, false_iff]
    omega
  · rw [if_neg large]
    by_cases lengths : proof.rowRoots.length ≠ proof.endRow.toNat + 1 - proof.startRow.toNat ∨
        proof.proofs.length ≠ proof.endRow.toNat + 1 - proof.startRow.toNat
    · rw [if_pos lengths]
      simp only [reduceCtorEq, false_iff]
      omega
    · rw [if_neg lengths]
      by_cases rows : proof.endRow.toNat < proof.startRow.toNat ∨
          isPowerOfTwo proof.total.toNat = false ∨ proof.total.toNat / 2 ≤ proof.endRow.toNat
      · rw [if_pos rows]
        simp only [reduceCtorEq, false_iff]
        rintro ⟨_, _, ⟨ordered, power, inside⟩, _⟩
        rcases rows with before | odd | outside
        · omega
        · rw [power] at odd
          contradiction
        · omega
      · rw [if_neg rows]
        simp only [ne_eq, not_or, Decidable.not_not, Bool.not_eq_false] at lengths rows
        obtain ⟨ordered, power, inside⟩ := rows
        have parts : proof.endRow.toNat + 1 < UInt64.size ∧
            proof.startRow.toNat ≤ proof.endRow.toNat ∧
            proof.endRow.toNat < proof.total.toNat / 2 := by omega
        simp only [parts, lengths, power, true_and]

/-- What is hashed while a row proof is checked. -/
def messages (proof : RowProof) : List Bytes :=
  (proof.rowRoots.zip proof.proofs).flatMap fun part => part.2.messages part.1.bytes

section Header

variable {shares : List Share} {header : AvailabilityHeader} {trees : RowTrees}
  (built : AvailabilityHeader.ofShares shares = .ok (header, trees))
include built

/-- A header has four times as many leaves as the square is wide. -/
theorem length_leaves_of_ofShares : header.leaves.length = 4 * header.squareSize := by
  obtain ⟨rows, columns⟩ := Square.length_roots_of_ofShares built
  rw [AvailabilityHeader.leaves, List.length_map, List.length_append]
  omega

/-- The first leaves of a header are the roots of the rows. -/
theorem getElem?_leaves_of_ofShares {row : Nat} (inside : row < 2 * header.squareSize) :
    header.leaves[row]? = header.rowRoots[row]?.map NamespacedHash.bytes := by
  obtain ⟨rows, _⟩ := Square.length_roots_of_ofShares built
  rw [AvailabilityHeader.leaves, List.getElem?_map, List.getElem?_append_left (by omega)]

/-- A header has as many leaves as a power of two when the width of the square is one. -/
theorem isPowerOfTwo_length_leaves (power : isPowerOfTwo header.squareSize = true) :
    isPowerOfTwo header.leaves.length = true := by
  obtain ⟨exponent, size⟩ := (isPowerOfTwo_iff_two_pow _).mp power
  rw [length_leaves_of_ofShares built, size,
    show 4 * 2 ^ exponent = 2 ^ (exponent + 2) by rw [Nat.pow_add]; omega]
  exact isPowerOfTwo_two_pow _

/-- The roots of consecutive rows with the proofs that they stand in the header make an accepted
row proof. -/
theorem verify_of_make {parts : List (NamespacedHash × Binary.Proof)} {startRow endRow : Nat}
    (power : isPowerOfTwo header.squareSize = true) (ordered : startRow ≤ endRow)
    (inside : endRow < 2 * header.squareSize) (count : parts.length = endRow + 1 - startRow)
    (each : ∀ (offset : Nat) (root : NamespacedHash) (own : Binary.Proof),
      parts[offset]? = some (root, own) → header.rowRoots[startRow + offset]? = some root ∧
        Binary.Proof.make header.leaves (startRow + offset) = .ok own) :
    verify ⟨parts.map Prod.fst, parts.map Prod.snd, UInt64.ofNat startRow, UInt64.ofNat endRow⟩
      header.hash = .ok () := by
  have leaves := length_leaves_of_ofShares built
  obtain ⟨_, narrow, _⟩ := AvailabilityHeader.length_of_ofShares built
  have word : UInt64.size = 18446744073709551616 := rfl
  have first : (UInt64.ofNat startRow).toNat = startRow := UInt64.toNat_ofNat_of_lt' (by omega)
  have last : (UInt64.ofNat endRow).toNat = endRow := UInt64.toNat_ofNat_of_lt' (by omega)
  have proven : ∀ (offset : Nat) (root : NamespacedHash) (own : Binary.Proof),
      parts[offset]? = some (root, own) → own.index.toNat = startRow + offset ∧
        own.total.toNat = header.leaves.length ∧ own.verify header.hash root.bytes = .ok () := by
    intro offset root own found
    obtain ⟨stands, made⟩ := each offset root own found
    obtain ⟨bound, _⟩ := List.getElem?_eq_some_iff.mp found
    have item : header.leaves[startRow + offset]? = some root.bytes := by
      rw [getElem?_leaves_of_ofShares built (by omega), stands]
      rfl
    obtain ⟨proof, again, index, total, accepted⟩ := Binary.Proof.exists_make
      (show header.leaves.length ≤ maxSplittable by
        rw [show maxSplittable = 9223372036854775808 from rfl]; omega) item
    obtain rfl : own = proof := Except.ok.inj (made.symm.trans again)
    exact ⟨index, total, accepted⟩
  have labelled : (total ⟨parts.map Prod.fst, parts.map Prod.snd, UInt64.ofNat startRow,
      UInt64.ofNat endRow⟩).toNat = header.leaves.length := by
    cases parts with
    | nil =>
      rw [List.length_nil] at count
      omega
    | cons part parts => exact (proven 0 part.1 part.2 rfl).2.1
  have whole : (parts.map Prod.fst).zip (parts.map Prod.snd) = parts := by
    rw [List.zip_map', List.map_id'']
    exact fun _ => rfl
  refine verify_eq_ok.mpr ?_
  simp only [first, last, List.length_map, labelled, whole]
  refine ⟨by omega, ⟨count, count⟩, ⟨ordered, isPowerOfTwo_length_leaves built power, by omega⟩,
    checkRows_eq_ok.mpr fun offset root own found => ?_⟩
  obtain ⟨index, total, accepted⟩ := proven offset root own found
  exact ⟨index, UInt64.toNat_inj.mp (total.trans labelled.symm), accepted⟩

/-- A row proof that holds the roots of consecutive rows with the proofs that are made for them is
accepted. -/
theorem verify_of_rows {proof : RowProof} (power : isPowerOfTwo header.squareSize = true)
    (ordered : proof.startRow.toNat ≤ proof.endRow.toNat)
    (inside : proof.endRow.toNat < 2 * header.squareSize)
    (roots : proof.rowRoots = (header.rowRoots.drop proof.startRow.toNat).take
      (proof.endRow.toNat + 1 - proof.startRow.toNat))
    (made : (List.range' proof.startRow.toNat
      (proof.endRow.toNat + 1 - proof.startRow.toNat)).mapM (Binary.Proof.make header.leaves) =
        .ok proof.proofs) : proof.verify header.hash = .ok () := by
  obtain ⟨rows, _⟩ := Square.length_roots_of_ofShares built
  obtain ⟨count, each⟩ := List.forall₂_iff_get.mp (mapM_eq_ok.mp made)
  rw [List.length_range'] at count
  have rootCount : proof.rowRoots.length =
      proof.endRow.toNat + 1 - proof.startRow.toNat := by
    rw [roots, List.length_take, List.length_drop]
    omega
  have accepted := verify_of_make built power ordered inside
    (show (proof.rowRoots.zip proof.proofs).length = _ by rw [List.length_zip]; omega)
    fun offset root own found => by
      obtain ⟨bound, entry⟩ := List.getElem?_eq_some_iff.mp found
      rw [List.length_zip] at bound
      rw [List.getElem_zip] at entry
      obtain ⟨rfl, rfl⟩ := Prod.mk.inj entry
      constructor
      · have stands := List.getElem?_eq_getElem (show offset < proof.rowRoots.length by omega)
        rw [← stands, roots, List.getElem?_take_of_lt (by omega), List.getElem?_drop]
      · have single := each offset (by rw [List.length_range']; omega) (by omega)
        simpa using single
  rw [List.map_fst_zip (by omega), List.map_snd_zip (by omega), UInt64.ofNat_toNat,
    UInt64.ofNat_toNat] at accepted
  exact accepted

section Accepted

variable {proof : RowProof} (power : isPowerOfTwo header.squareSize = true)
  (free : Sha256.CollisionFree (Binary.messages header.leaves ++ proof.messages))
  (verified : proof.verify header.hash = .ok ())
include built power free verified

/-- The parts of an accepted row proof are labelled with the number of leaves of the header, each
root is the leaf at the position of its row, and its proof is the one that is made there, unless
messages collide. -/
theorem part_of_verify {offset : Nat} {root : NamespacedHash} {part : Binary.Proof}
    (found : (proof.rowRoots.zip proof.proofs)[offset]? = some (root, part)) :
    proof.total.toNat = header.leaves.length ∧
      header.leaves[proof.startRow.toNat + offset]? = some root.bytes ∧
      Binary.Proof.make header.leaves (proof.startRow.toNat + offset) = .ok part := by
  obtain ⟨_, _, ⟨_, labelled, _⟩, checked⟩ := verify_eq_ok.mp verified
  obtain ⟨position, same, accepted⟩ := checkRows_eq_ok.mp checked offset root part found
  obtain ⟨positive, _, _⟩ := AvailabilityHeader.length_of_ofShares built
  have leaves := length_leaves_of_ofShares built
  have nonempty : header.leaves ≠ [] := List.length_pos_iff.mp (by omega)
  have hashed : Sha256.CollisionFree
      (Binary.messages header.leaves ++ part.messages root.bytes) := by
    apply free.mono
    apply append_subset_append (List.Subset.refl _)
    exact fun _ member => List.mem_flatMap.mpr ⟨_, List.mem_of_getElem? found, member⟩
  obtain ⟨total, item⟩ := Binary.Proof.getElem?_of_verify nonempty hashed accepted
    (by rw [same]; exact labelled) (isPowerOfTwo_length_leaves built power)
  have made := Binary.Proof.make_of_verify nonempty hashed accepted total
  rw [position] at item made
  exact ⟨same ▸ total, item, made⟩

/-- An accepted row proof is about rows of the extended square, and holds their roots and the proofs
that are made for them, unless messages collide. -/
theorem rows_of_verify :
    proof.startRow.toNat ≤ proof.endRow.toNat ∧ proof.endRow.toNat < 2 * header.squareSize ∧
      proof.rowRoots = (header.rowRoots.drop proof.startRow.toNat).take
        (proof.endRow.toNat + 1 - proof.startRow.toNat) ∧
      (List.range' proof.startRow.toNat (proof.endRow.toNat + 1 - proof.startRow.toNat)).mapM
        (Binary.Proof.make header.leaves) = .ok proof.proofs := by
  obtain ⟨_, ⟨roots, proofs⟩, ⟨ordered, _, half⟩, _⟩ := verify_eq_ok.mp verified
  obtain ⟨rows, _⟩ := Square.length_roots_of_ofShares built
  have leaves := length_leaves_of_ofShares built
  have parts : (proof.rowRoots.zip proof.proofs).length =
      proof.endRow.toNat + 1 - proof.startRow.toNat := by
    rw [List.length_zip, roots, proofs, Nat.min_self]
  have entry : ∀ offset (inside : offset < proof.rowRoots.length),
      (proof.rowRoots.zip proof.proofs)[offset]? =
        some (proof.rowRoots[offset], proof.proofs[offset]) := fun offset inside =>
    (List.getElem?_eq_getElem (by omega)).trans (congrArg _ List.getElem_zip)
  have bound : proof.endRow.toNat < 2 * header.squareSize := by
    have size := (part_of_verify built power free verified (entry 0 (by omega))).1
    omega
  refine ⟨ordered, bound, ?roots, ?proofs⟩
  case roots =>
    apply List.ext_getElem
    · rw [roots, List.length_take, List.length_drop]
      omega
    · intro offset inside _
      have root := (part_of_verify built power free verified (entry offset inside)).2.1
      rw [getElem?_leaves_of_ofShares built (by omega),
        List.getElem?_eq_getElem (by omega)] at root
      rw [List.getElem_take, List.getElem_drop]
      exact (NamespacedHash.bytes_injective (Option.some.inj root)).symm
  case proofs =>
    rw [mapM_eq_ok, List.forall₂_iff_get]
    refine ⟨by rw [List.length_range', proofs], fun offset _ inside => ?_⟩
    have made := (part_of_verify built power free verified (entry offset (by omega))).2.2
    simpa using made

end Accepted

end Header

/-- A row proof is accepted with the hash of a header exactly when its rows are rows of the extended
square, it holds their roots in order, and the proof of each root is the one that is made for its
row, unless two different messages that are hashed for the hash and the proof have one digest. -/
theorem verify_iff_rows {shares : List Share} {header : AvailabilityHeader} {trees : RowTrees}
    {squareSize : Nat} (built : AvailabilityHeader.ofShares shares = .ok (header, trees))
    (power : isPowerOfTwo squareSize = true) (full : shares.length = squareSize * squareSize)
    (proof : RowProof) :
    (proof.verify header.hash = .ok () ↔
      proof.startRow.toNat ≤ proof.endRow.toNat ∧ proof.endRow.toNat < 2 * squareSize ∧
        proof.rowRoots = (header.rowRoots.drop proof.startRow.toNat).take
          (proof.endRow.toNat + 1 - proof.startRow.toNat) ∧
        (List.range' proof.startRow.toNat
          (proof.endRow.toNat + 1 - proof.startRow.toNat)).mapM
            (Binary.Proof.make header.leaves) = .ok proof.proofs) ∨
      Sha256.Collision (Binary.messages header.leaves ++ proof.messages) := by
  obtain rfl := AvailabilityHeader.squareSize_of_ofShares built full
  rcases Sha256.collisionFree_or_collision (Binary.messages header.leaves ++ proof.messages) with
    free | collision
  · left
    constructor
    · intro verified
      exact rows_of_verify built power free verified
    · rintro ⟨ordered, inside, roots, made⟩
      exact verify_of_rows built power ordered inside roots made
  · exact .inr collision

/-- In a square of four padding shares, the second row and the first one of parity are proven
together, and with these two rows nothing but their roots is accepted. -/
theorem verify_iff_rows_of_padding :
    let shares := Share.tailPadding 4
    ∃ (header : AvailabilityHeader) (trees : RowTrees) (made : RowProof),
      AvailabilityHeader.ofShares shares = .ok (header, trees) ∧
        isPowerOfTwo 2 = true ∧ shares.length = 2 * 2 ∧
        made.startRow = 1 ∧ made.endRow = 2 ∧ made.verify header.hash = .ok () ∧
        ∀ roots proofs, RowProof.verify ⟨roots, proofs, 1, 2⟩ header.hash = .ok () →
          roots = made.rowRoots ∧ proofs = made.proofs ∨
            Sha256.Collision (Binary.messages header.leaves ++
              RowProof.messages ⟨roots, proofs, 1, 2⟩) := by
  intro shares
  have ordered : Ordered shares := Ordered.of_ns fun _ => Square.ns_of_mem_tailPadding
  have full : shares.length = 2 * 2 := List.length_replicate
  have power : isPowerOfTwo 2 = true := by decide
  obtain ⟨header, trees, built⟩ := ordered.exists_ofShares (by decide) (by decide) full
  have width := AvailabilityHeader.squareSize_of_ofShares built full
  have leaves := length_leaves_of_ofShares built
  obtain ⟨proofs, listed⟩ : ∃ proofs,
      (List.range' 1 2).mapM (Binary.Proof.make header.leaves) = .ok proofs := by
    apply exists_mapM_eq_ok
    intro row member
    have bound := List.mem_range'_1.mp member
    exact ⟨_, Binary.Proof.make_eq_ok.mpr ⟨by omega, rfl⟩⟩
  let made : RowProof := ⟨(header.rowRoots.drop 1).take 2, proofs, 1, 2⟩
  have accepted : made.verify header.hash = .ok () := by
    apply verify_of_rows built
    · rwa [width]
    · exact show 1 ≤ 2 by decide
    · rw [width]
      exact show 2 < 2 * 2 by decide
    · rfl
    · exact listed
  refine ⟨header, trees, made, built, power, full, rfl, rfl, accepted, fun roots proofs other => ?_⟩
  rcases verify_iff_rows built power full ⟨roots, proofs, 1, 2⟩ with exact | collision
  · obtain ⟨_, _, same, again⟩ := exact.mp other
    exact .inl ⟨same, Except.ok.inj (again.symm.trans listed)⟩
  · exact .inr collision

end RowProof

end DataSquare
