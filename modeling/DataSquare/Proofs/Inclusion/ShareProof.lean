import DataSquare.Inclusion.ShareProof
import DataSquare.Proofs.Inclusion.RowProof
import DataSquare.Proofs.Merkle.Rebuilt
import DataSquare.Proofs.Square.Cells

/-!
# Share proofs

A share proof is accepted when its rows are proven and its data, cut into those of the single rows,
are proven in each of them. So the data stand in the cells that the proof names: in the data
quadrant they are shares in the namespace of the proof, and outside of it that namespace is the one
of parity.
-/
namespace DataSquare

open Merkle

namespace ShareProof

/-- The data of a proof, cut into those of the single rows. -/
def rowData : List RangeProof → List Bytes → List (List Bytes)
  | [], _ => []
  | part :: parts, data =>
    let count := part.stop.toNat - part.start.toNat
    data.take count :: rowData parts (data.drop count)

/-- Data that are put together from those of rows are cut into these again. -/
theorem rowData_flatten {parts : List RangeProof} {chunks : List (List Bytes)}
    (sized : List.Forall₂ (fun part chunk =>
      chunk.length = part.stop.toNat - part.start.toNat) parts chunks) :
    rowData parts chunks.flatten = chunks := by
  induction sized with
  | nil => rfl
  | cons head tail ih =>
    rw [List.flatten_cons, rowData, ← head, List.take_left, List.drop_left, ih]

/-- Data that are accepted in a row are as many as the proof names. -/
theorem length_of_verifyInclusion {part : RangeProof} {root : NamespacedHash} {ns : Namespace}
    {data : List Bytes} (verified : part.verifyInclusion root ns data = .ok ()) :
    part.start.toNat < part.stop.toNat ∧
      data.length = part.stop.toNat - part.start.toNat := by
  obtain ⟨ordered, _, full, _⟩ := RangeProof.verifyLeafHashes_eq_ok.mp verified
  rw [List.length_map] at full
  exact ⟨ordered, full⟩

/-- Data are accepted exactly when those of each row are and nothing is left. -/
theorem checkShares_eq_ok {ns : Namespace} {parts : List (RangeProof × NamespacedHash)}
    {data : List Bytes} : checkShares ns parts data = .ok () ↔
      data = (rowData (parts.map Prod.fst) data).flatten ∧
        List.Forall₂ (fun part chunk => part.1.verifyInclusion part.2 ns chunk = .ok ()) parts
          (rowData (parts.map Prod.fst) data) := by
  induction parts generalizing data with
  | nil =>
    cases data with
    | nil => simp [checkShares, rowData]
    | cons first rest => simp [checkShares, rowData]
  | cons head parts ih =>
    obtain ⟨part, root⟩ := head
    rw [List.map_cons, rowData, List.forall₂_cons, List.flatten_cons, checkShares]
    dsimp only
    have cut : data = data.take (part.stop.toNat - part.start.toNat) ++
        (rowData (parts.map Prod.fst) (data.drop (part.stop.toNat - part.start.toNat))).flatten ↔
          data.drop (part.stop.toNat - part.start.toNat) = (rowData (parts.map Prod.fst)
            (data.drop (part.stop.toNat - part.start.toNat))).flatten := by
      conv_lhs =>
        lhs
        rw [← List.take_append_drop (part.stop.toNat - part.start.toNat) data]
      exact List.append_right_inj _
    rw [cut]
    by_cases short : data.length < part.stop.toNat - part.start.toNat
    · rw [if_pos short]
      simp only [reduceCtorEq, false_iff]
      rintro ⟨_, verified, _⟩
      have full := (length_of_verifyInclusion verified).2
      rw [List.length_take] at full
      omega
    · rw [if_neg short]
      cases part.verifyInclusion root ns (data.take (part.stop.toNat - part.start.toNat)) with
      | error cause => simp
      | ok _ =>
        rw [ih]
        simp

/-- A proof is accepted exactly when that of its rows is, there is a part for each row, and the data
are accepted in the rows. -/
theorem verify_eq_ok {proof : ShareProof} {dataRoot : Digest} :
    proof.verify dataRoot = .ok () ↔ proof.rowProof.verify dataRoot = .ok () ∧
      proof.shareProofs.length = proof.rowProof.rowRoots.length ∧
      checkShares proof.ns (proof.shareProofs.zip proof.rowProof.rowRoots) proof.data =
        .ok () := by
  unfold verify
  cases proof.rowProof.verify dataRoot with
  | error cause => simp
  | ok _ =>
    by_cases count : proof.shareProofs.length = proof.rowProof.rowRoots.length
    · simp [count]
    · simp [count]

/-- What is hashed while a share proof is checked: for its rows and for the data in each. -/
def messages (proof : ShareProof) : List Bytes :=
  proof.rowProof.messages ++ (List.zipWith (fun part chunk => part.messages proof.ns chunk)
    proof.shareProofs (rowData proof.shareProofs proof.data)).flatten

/-- Data that are accepted in a row stand in the cells that the proof names, unless messages
collide. -/
theorem standsInCell_of_verifyInclusion {shares : List Share} {header : AvailabilityHeader}
    {row : Nat} {tree : NamespacedTree} {part : RangeProof} {ns : Namespace} {chunk : List Bytes}
    (rowOf : RowOf shares header row tree) (power : isPowerOfTwo header.squareSize = true)
    (free : Sha256.CollisionFree (Square.cellMessages shares ++
      (Square.headerMessages shares ++ part.messages ns chunk)))
    (verified : part.verifyInclusion tree.root ns chunk = .ok ()) {offset : Nat} {cell : Bytes}
    (found : chunk[offset]? = some cell) :
    StandsInCell shares header.squareSize row (part.start.toNat + offset) ns cell := by
  obtain ⟨exponent, size⟩ := (isPowerOfTwo_iff_two_pow _).mp power
  have width : tree.leaves.length = 2 ^ (exponent + 1) := by
    rw [rowOf.length, size, Nat.pow_succ']
  have hashes : ∀ hash ∈ tree.leaves, ∃ own bytes, hash = NamespacedHash.leaf own bytes ∧
      NamespacedHash.leafMessage own bytes ∈ Square.cellMessages shares := by
    intro hash member
    obtain ⟨position, entry⟩ := List.mem_iff_getElem?.mp member
    obtain ⟨own, bytes, same, hashed, _⟩ := rowOf.leaves position hash entry
    exact ⟨own, bytes, same, hashed⟩
  have hashed : Sha256.CollisionFree (Square.cellMessages shares ++
      namespacedMessages tree.leaves ++ part.messages ns chunk) := by
    rw [List.append_assoc]
    exact free.mono (append_subset_append (List.Subset.refl _)
      (append_subset_append rowOf.messages (List.Subset.refl _)))
  obtain ⟨index, place, left, right⟩ :=
    RangeProof.exists_leaf_of_verifyInclusion width hashes hashed verified found
  obtain ⟨own, bytes, same, message, stands⟩ := rowOf.leaves index _ place
  have ownMessage : NamespacedHash.leafMessage ns cell ∈ part.messages ns chunk :=
    List.mem_append_left _ (List.mem_map_of_mem (List.mem_of_getElem? found))
  obtain ⟨rfl, rfl⟩ := NamespacedHash.leaf_injective free
    (List.mem_append_right _ (List.mem_append_right _ ownMessage))
    (List.mem_append_left _ message) same
  rw [← size] at left right
  constructor
  · intro rowInside columnInside
    rw [left columnInside] at stands
    exact stands.data rowInside columnInside
  · intro outside
    refine stands.parity fun ⟨rowInside, columnInside⟩ => outside ⟨rowInside, ?_⟩
    by_contra beyond
    have later := right (by omega)
    omega

/-- The data of a proof are those of consecutive rows of the extended square, and stand in the cells
that it names. -/
structure NamesCells (proof : ShareProof) (shares : List Share) (squareSize : Nat) : Prop where
  /-- The rows are in order. -/
  ordered : proof.rowProof.startRow.toNat ≤ proof.rowProof.endRow.toNat
  /-- There is a part for each row. -/
  counted : proof.shareProofs.length =
    proof.rowProof.endRow.toNat + 1 - proof.rowProof.startRow.toNat
  /-- All data are those of some row. -/
  cut : proof.data = (rowData proof.shareProofs proof.data).flatten
  /-- Each part is for as many data as it names. -/
  sized : List.Forall₂ (fun part chunk => part.start.toNat < part.stop.toNat ∧
    chunk.length = part.stop.toNat - part.start.toNat) proof.shareProofs
      (rowData proof.shareProofs proof.data)
  /-- The data stand in the named cells. -/
  stands : ∀ (row : Nat) (part : RangeProof) (chunk : List Bytes),
    proof.shareProofs[row]? = some part →
      (rowData proof.shareProofs proof.data)[row]? = some chunk →
        ∀ (offset : Nat) (cell : Bytes), chunk[offset]? = some cell →
          StandsInCell shares squareSize (proof.rowProof.startRow.toNat + row)
            (part.start.toNat + offset) proof.ns cell

/-- What is hashed while the data of one row are checked is among what is hashed for the proof. -/
theorem part_messages_subset {proof : ShareProof} {row : Nat} {part : RangeProof}
    {chunk : List Bytes} (named : proof.shareProofs[row]? = some part)
    (held : (rowData proof.shareProofs proof.data)[row]? = some chunk) :
    part.messages proof.ns chunk ⊆ proof.messages := by
  have entry : (List.zipWith (fun part chunk => part.messages proof.ns chunk) proof.shareProofs
      (rowData proof.shareProofs proof.data))[row]? = some (part.messages proof.ns chunk) := by
    rw [List.getElem?_zipWith, named, held]
  refine List.subset_append_of_subset_right _ fun message member => ?_
  exact List.mem_flatten.mpr ⟨_, List.mem_of_getElem? entry, member⟩

section Accepted

variable {shares : List Share} {header : AvailabilityHeader} {trees : RowTrees} {proof : ShareProof}
  (built : AvailabilityHeader.ofShares shares = .ok (header, trees))
  (power : isPowerOfTwo header.squareSize = true)
  (free : Sha256.CollisionFree (Square.cellMessages shares ++
    (Square.headerMessages shares ++ proof.messages)))
  (verified : proof.verify header.hash = .ok ())
include built power free verified

/-- The rows of an accepted proof are those of the extended square, and it has a part for each,
unless messages collide. -/
theorem rows_of_verify :
    proof.rowProof.startRow.toNat ≤ proof.rowProof.endRow.toNat ∧
      proof.rowProof.endRow.toNat < 2 * header.squareSize ∧
      proof.shareProofs.length =
        proof.rowProof.endRow.toNat + 1 - proof.rowProof.startRow.toNat ∧
      proof.rowProof.rowRoots = (header.rowRoots.drop proof.rowProof.startRow.toNat).take
        (proof.rowProof.endRow.toNat + 1 - proof.rowProof.startRow.toNat) := by
  obtain ⟨rowsVerified, counted, _⟩ := verify_eq_ok.mp verified
  have rowsFree : Sha256.CollisionFree
      (Merkle.Binary.messages header.leaves ++ proof.rowProof.messages) := by
    apply free.mono
    apply List.subset_append_of_subset_right
    apply append_subset_append _ (List.subset_append_left _ _)
    rw [Square.headerMessages_of_ofShares built]
    exact List.subset_append_right _ _
  obtain ⟨ordered, inside, roots, _⟩ := RowProof.rows_of_verify built power rowsFree rowsVerified
  obtain ⟨rows, _⟩ := Square.length_roots_of_ofShares built
  refine ⟨ordered, inside, ?_, roots⟩
  rw [counted, roots, List.length_take, List.length_drop]
  omega

/-- The data of an accepted proof are cut into those of its rows, and these are accepted under the
roots of the rows, unless messages collide. -/
theorem rowData_of_verify :
    proof.data = (rowData proof.shareProofs proof.data).flatten ∧
      proof.shareProofs.length = (rowData proof.shareProofs proof.data).length ∧
      ∀ (row : Nat) (part : RangeProof) (chunk : List Bytes),
        proof.shareProofs[row]? = some part →
        (rowData proof.shareProofs proof.data)[row]? = some chunk → ∃ root,
          header.rowRoots[proof.rowProof.startRow.toNat + row]? = some root ∧
            part.verifyInclusion root proof.ns chunk = .ok () := by
  obtain ⟨_, counted, checked⟩ := verify_eq_ok.mp verified
  obtain ⟨_, _, count, roots⟩ := rows_of_verify built power free verified
  have parts : (proof.shareProofs.zip proof.rowProof.rowRoots).map Prod.fst = proof.shareProofs :=
    List.map_fst_zip (Nat.le_of_eq counted)
  have accepted := checkShares_eq_ok.mp checked
  rw [parts] at accepted
  obtain ⟨cut, each⟩ := accepted
  obtain ⟨lengths, get⟩ := List.forall₂_iff_get.mp each
  rw [List.length_zip, ← counted, Nat.min_self] at lengths
  refine ⟨cut, lengths, fun row part chunk named held => ?_⟩
  obtain ⟨bound, rfl⟩ := List.getElem?_eq_some_iff.mp named
  obtain ⟨chunkBound, rfl⟩ := List.getElem?_eq_some_iff.mp held
  have proven := get row (by rw [List.length_zip]; omega) chunkBound
  simp only [List.get_eq_getElem, List.getElem_zip] at proven
  refine ⟨_, ?_, proven⟩
  have entry := List.getElem?_eq_getElem (show row < proof.rowProof.rowRoots.length by omega)
  rw [← entry, roots, List.getElem?_take_of_lt (by omega), List.getElem?_drop]

/-- The data of an accepted proof stand in the cells that it names, unless messages collide. -/
theorem namesCells_of_verify : proof.NamesCells shares header.squareSize := by
  obtain ⟨ordered, inside, counted, _⟩ := rows_of_verify built power free verified
  obtain ⟨cut, lengths, each⟩ := rowData_of_verify built power free verified
  refine ⟨ordered, counted, cut, ?sized, ?stands⟩
  case sized =>
    refine List.forall₂_iff_get.mpr ⟨lengths, fun row bound chunkBound => ?_⟩
    obtain ⟨_, _, proven⟩ := each row _ _ (List.getElem?_eq_getElem bound)
      (List.getElem?_eq_getElem chunkBound)
    exact length_of_verifyInclusion proven
  case stands =>
    intro row part chunk named held offset cell found
    obtain ⟨root, listed, proven⟩ := each row part chunk named held
    obtain ⟨bound, _⟩ := List.getElem?_eq_some_iff.mp named
    obtain ⟨tree, own⟩ := exists_rowOf built
      (show proof.rowProof.startRow.toNat + row < 2 * header.squareSize by omega)
    obtain rfl : root = tree.root := Option.some.inj (listed.symm.trans own.root)
    refine standsInCell_of_verifyInclusion own power (free.mono ?_) proven found
    exact append_subset_append (List.Subset.refl _)
      (append_subset_append (List.Subset.refl _) (part_messages_subset named held))

end Accepted

/-- What is proven about a row is true: its root is in the header, with the proof of that, and the
data are accepted under it. -/
structure RowPart.Proves (part : RowPart) (header : AvailabilityHeader) (row : Nat)
    (ns : Namespace) (chunk : List Bytes) : Prop where
  /-- The root is that of the row. -/
  root : header.rowRoots[row]? = some part.root
  /-- The proof is the one of the root in the header. -/
  proof : Binary.Proof.make header.leaves row = .ok part.proof
  /-- The data are accepted. -/
  leaves : part.shareProof.verifyInclusion part.root ns chunk = .ok ()

section Complete

variable {shares : List Share} {header : AvailabilityHeader} {trees : RowTrees} {ns : Namespace}
  (built : AvailabilityHeader.ofShares shares = .ok (header, trees))
include built

/-- The proof of shares in a row of the data that are in one namespace proves them. -/
theorem exists_proves {row start stop : Nat} (inside : row < header.squareSize)
    (nonempty : start < stop) (bound : stop ≤ header.squareSize)
    (named : ∀ (position : Nat) (share : Share), start ≤ position → position < stop →
      shares[row * header.squareSize + position]? = some share → share.ns = .ok ns) :
    ∃ part : RowPart, part.shareProof.start.toNat = start ∧ part.shareProof.stop.toNat = stop ∧
      part.Proves header row ns (((shares.drop (row * header.squareSize + start)).take
        (stop - start)).map Share.bytes) := by
  obtain ⟨positive, narrow, full⟩ := AvailabilityHeader.length_of_ofShares built
  obtain ⟨tree, own⟩ := exists_rowOf built (show row < 2 * header.squareSize by omega)
  have leaves := RowProof.length_leaves_of_ofShares built
  have small : maxSplittable = 9223372036854775808 := rfl
  have word : UInt64.size = 18446744073709551616 := rfl
  have root : header.leaves[row]? = some tree.root.bytes := by
    rw [RowProof.getElem?_leaves_of_ofShares built (by omega), own.root]
    rfl
  obtain ⟨proof, made, _⟩ := Binary.Proof.exists_make (by omega) root
  have accepted := RangeProof.verifyLeafHashes_make
    (show tree.leaves.length ≤ maxSplittable by rw [own.length]; omega) nonempty
    (show stop ≤ tree.leaves.length by rw [own.length]; omega)
  rw [own.leaves_of_named inside bound named] at accepted
  exact ⟨⟨RangeProof.make tree.leaves start stop, tree.root, proof⟩,
    UInt64.toNat_ofNat_of_lt' (by omega), UInt64.toNat_ofNat_of_lt' (by omega),
    own.root, made, accepted⟩

/-- Parts that prove the data of consecutive rows make an accepted share proof. -/
theorem verify_of_proves {parts : List RowPart} {chunks : List (List Bytes)}
    {startRow endRow : Nat} (power : isPowerOfTwo header.squareSize = true)
    (ordered : startRow ≤ endRow) (inside : endRow < 2 * header.squareSize)
    (count : parts.length = endRow + 1 - startRow) (lengths : parts.length = chunks.length)
    (each : ∀ (offset : Nat) (part : RowPart) (chunk : List Bytes),
      parts[offset]? = some part → chunks[offset]? = some chunk →
        part.Proves header (startRow + offset) ns chunk) :
    verify ⟨chunks.flatten, ns, parts.map RowPart.shareProof, ⟨parts.map RowPart.root,
      parts.map RowPart.proof, UInt64.ofNat startRow, UInt64.ofNat endRow⟩⟩ header.hash =
        .ok () := by
  have parted : List.Forall₂ (fun part chunk =>
      part.1.verifyInclusion part.2 ns chunk = .ok ())
        (parts.map fun part => (part.shareProof, part.root)) chunks := by
    rw [List.forall₂_map_left_iff]
    refine List.forall₂_iff_get.mpr ⟨lengths, fun offset bound chunkBound => ?_⟩
    exact (each offset _ _ (List.getElem?_eq_getElem bound)
      (List.getElem?_eq_getElem chunkBound)).leaves
  have cut : rowData (parts.map RowPart.shareProof) chunks.flatten = chunks := by
    apply rowData_flatten
    rw [List.forall₂_map_left_iff]
    rw [List.forall₂_map_left_iff] at parted
    exact parted.imp fun _ _ verified => (length_of_verifyInclusion verified).2
  have roots : ∀ (offset : Nat) (root : NamespacedHash) (own : Binary.Proof),
      (parts.map fun part => (part.root, part.proof))[offset]? = some (root, own) →
        header.rowRoots[startRow + offset]? = some root ∧
          Binary.Proof.make header.leaves (startRow + offset) = .ok own := by
    intro offset root own found
    rw [List.getElem?_map] at found
    obtain ⟨part, entry, same⟩ := Option.map_eq_some_iff.mp found
    obtain ⟨rfl, rfl⟩ := Prod.mk.inj same
    obtain ⟨bound, _⟩ := List.getElem?_eq_some_iff.mp entry
    have proven := each offset part _ entry (List.getElem?_eq_getElem (lengths ▸ bound))
    exact ⟨proven.root, proven.proof⟩
  have rows := RowProof.verify_of_make built power ordered inside
    (by rw [List.length_map, count]) roots
  rw [List.map_map, List.map_map] at rows
  have zipped : (parts.map RowPart.shareProof).zip (parts.map RowPart.root) =
      parts.map fun part => (part.shareProof, part.root) := List.zip_map' ..
  refine verify_eq_ok.mpr ⟨rows, by rw [List.length_map, List.length_map], ?_⟩
  rw [zipped, checkShares_eq_ok, List.map_map]
  change chunks.flatten = (rowData (parts.map RowPart.shareProof) chunks.flatten).flatten ∧
    List.Forall₂ _ _ (rowData (parts.map RowPart.shareProof) chunks.flatten)
  rw [cut]
  exact ⟨rfl, parted⟩

/-- Every choice of a range of shares in each of some consecutive rows has an accepted proof when
all these shares are in one namespace. -/
theorem exists_verify_of_ranges {startRow : Nat} {ranges : List (Nat × Nat)}
    (power : isPowerOfTwo header.squareSize = true) (nonempty : ranges ≠ [])
    (inside : startRow + ranges.length ≤ header.squareSize)
    (each : ∀ (offset : Nat) (range : Nat × Nat), ranges[offset]? = some range →
      range.1 < range.2 ∧ range.2 ≤ header.squareSize ∧
        ∀ (position : Nat) (share : Share), range.1 ≤ position → position < range.2 →
          shares[(startRow + offset) * header.squareSize + position]? = some share →
            share.ns = .ok ns) :
    ∃ proof : ShareProof, proof.verify header.hash = .ok () ∧ proof.ns = ns ∧
      proof.rowProof.startRow.toNat = startRow ∧
      List.Forall₂ (fun part range => part.start.toNat = range.1 ∧ part.stop.toNat = range.2)
        proof.shareProofs ranges := by
  have proven : ∀ offset : Fin ranges.length, ∃ (part : RowPart) (chunk : List Bytes),
      part.shareProof.start.toNat = ranges[offset].1 ∧
        part.shareProof.stop.toNat = ranges[offset].2 ∧
        part.Proves header (startRow + offset) ns chunk := by
    intro offset
    obtain ⟨ordered, bound, named⟩ := each offset _ (List.getElem?_eq_getElem offset.isLt)
    obtain ⟨part, start, stop, proves⟩ := exists_proves built
      (show startRow + offset < header.squareSize by omega) ordered bound named
    exact ⟨part, _, start, stop, proves⟩
  choose part chunk start stop proves using proven
  have listed : ∀ (offset : Nat) (own : RowPart) (data : List Bytes),
      (List.ofFn part)[offset]? = some own → (List.ofFn chunk)[offset]? = some data →
        own.Proves header (startRow + offset) ns data := by
    intro offset own data found held
    obtain ⟨bound, rfl⟩ := List.getElem?_eq_some_iff.mp found
    obtain ⟨_, rfl⟩ := List.getElem?_eq_some_iff.mp held
    rw [List.getElem_ofFn, List.getElem_ofFn]
    exact proves ⟨offset, _⟩
  have positive := List.length_pos_iff.mpr nonempty
  have count : (List.ofFn part).length = startRow + ranges.length - 1 + 1 - startRow := by
    rw [List.length_ofFn]
    omega
  have lengths : (List.ofFn part).length = (List.ofFn chunk).length := by
    rw [List.length_ofFn, List.length_ofFn]
  have verified := verify_of_proves built power
    (show startRow ≤ startRow + ranges.length - 1 by omega)
    (show startRow + ranges.length - 1 < 2 * header.squareSize by omega) count lengths listed
  have narrow := (AvailabilityHeader.length_of_ofShares built).2.1
  have word : UInt64.size = 18446744073709551616 := rfl
  refine ⟨_, verified, rfl, UInt64.toNat_ofNat_of_lt' (by omega), ?_⟩
  rw [List.forall₂_map_left_iff]
  refine List.forall₂_iff_get.mpr ⟨List.length_ofFn, fun offset bound rangeBound => ?_⟩
  rw [List.get_eq_getElem, List.getElem_ofFn]
  exact ⟨start ⟨offset, rangeBound⟩, stop ⟨offset, rangeBound⟩⟩

end Complete

end ShareProof

end DataSquare
