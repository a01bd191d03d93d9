import DataSquare.Proofs.Square.Binding
import DataSquare.Proofs.Square.Split

/-!
# What a digest determines

The hash of a header determines the shares of its square, also among squares of other widths, and
the commitment to a blob determines the blob, also among commitments whose subtrees are grouped in
another way. Both hold unless two of the messages that are hashed have one digest.
-/
namespace DataSquare

open Merkle

/-- The header of an extended square is that of its shares. -/
theorem AvailabilityHeader.exists_ofShares_of_ofSquare {shares : List Share}
    {square : ExtendedSquare} {header : AvailabilityHeader}
    (extended : extendShares shares = .ok square)
    (found : AvailabilityHeader.ofSquare square = .ok header) :
    ∃ trees, AvailabilityHeader.ofShares shares = .ok (header, trees) := by
  obtain ⟨⟨own, trees⟩, built, same⟩ := map_eq_ok.mp found
  obtain rfl : own = header := same
  refine ⟨trees, ?_⟩
  rw [AvailabilityHeader.ofShares, extended]
  exact mapError_eq_ok.mpr built

/-- Two extended squares have one header hash exactly when they have the same shares, unless two
different messages that are hashed for their headers have one digest. -/
theorem AvailabilityHeader.hash_eq_iff {shares others : List Share}
    {square otherSquare : ExtendedSquare} {header otherHeader : AvailabilityHeader}
    (extended : extendShares shares = .ok square)
    (found : AvailabilityHeader.ofSquare square = .ok header)
    (otherExtended : extendShares others = .ok otherSquare)
    (otherFound : AvailabilityHeader.ofSquare otherSquare = .ok otherHeader) :
    (header.hash = otherHeader.hash ↔ shares = others) ∨
      Sha256.Collision (Square.headerMessages shares ++ Square.headerMessages others) := by
  obtain ⟨trees, built⟩ := AvailabilityHeader.exists_ofShares_of_ofSquare extended found
  obtain ⟨otherTrees, otherBuilt⟩ :=
    AvailabilityHeader.exists_ofShares_of_ofSquare otherExtended otherFound
  rcases Sha256.collisionFree_or_collision
    (Square.headerMessages shares ++ Square.headerMessages others) with free | collision
  · left
    constructor
    · exact fun same => Square.shares_eq_of_hash_eq built otherBuilt free same
    · intro same
      have both := built.symm.trans ((congrArg AvailabilityHeader.ofShares same).trans otherBuilt)
      rw [(Prod.mk.inj (Except.ok.inj both)).1]
  · exact .inr collision

/-- A square of padding has a header. -/
theorem AvailabilityHeader.exists_ofSquare_tailPadding (squareSize : Nat) (positive : 0 < squareSize)
    (narrow : squareSize ≤ 128) : ∃ square header,
      extendShares (Share.tailPadding (squareSize * squareSize)) = .ok square ∧
        AvailabilityHeader.ofSquare square = .ok header := by
  have ordered : Ordered (Share.tailPadding (squareSize * squareSize)) :=
    Ordered.of_ns fun _ => Square.ns_of_mem_tailPadding
  have full : (Share.tailPadding (squareSize * squareSize)).length = squareSize * squareSize :=
    List.length_replicate
  obtain ⟨header, trees, built⟩ := ordered.exists_ofShares positive narrow full
  obtain ⟨square, rows, columns, extended, rowsFound, columnsFound, rfl, rfl⟩ :=
    AvailabilityHeader.ofShares_eq_ok.mp built
  have both : AvailabilityHeader.withTrees square = .ok
      (⟨rows.map NamespacedTree.root, columns.map NamespacedTree.root⟩, .ofTrees rows) := by
    rw [AvailabilityHeader.withTrees, rowsFound, columnsFound]
  exact ⟨square, _, extended, map_eq_ok.mpr ⟨_, both, rfl⟩⟩

/-- Squares of one and of four padding shares have different header hashes, unless messages
collide. -/
theorem AvailabilityHeader.hash_ne_of_one_and_four_shares :
    ∃ square otherSquare header otherHeader,
      extendShares (Share.tailPadding 1) = .ok square ∧
      AvailabilityHeader.ofSquare square = .ok header ∧
      extendShares (Share.tailPadding 4) = .ok otherSquare ∧
      AvailabilityHeader.ofSquare otherSquare = .ok otherHeader ∧
      (header.hash ≠ otherHeader.hash ∨
        Sha256.Collision (Square.headerMessages (Share.tailPadding 1) ++
          Square.headerMessages (Share.tailPadding 4))) := by
  obtain ⟨square, header, extended, found⟩ :=
    AvailabilityHeader.exists_ofSquare_tailPadding 1 (by decide) (by decide)
  obtain ⟨otherSquare, otherHeader, otherExtended, otherFound⟩ :=
    AvailabilityHeader.exists_ofSquare_tailPadding 2 (by decide) (by decide)
  refine ⟨square, otherSquare, header, otherHeader, extended, found, otherExtended, otherFound, ?_⟩
  have different : Share.tailPadding 1 ≠ Share.tailPadding 4 := by
    intro same
    have lengths : 1 = 4 := congrArg List.length same
    omega
  rcases AvailabilityHeader.hash_eq_iff extended found otherExtended otherFound with
    exact | collision
  · exact .inl fun same => different (exact.mp same)
  · exact .inr collision

/-- What is hashed for the commitment to a blob: its shares, the nodes of the subtrees over them,
and the tree over the roots of these. -/
def Blob.commitmentMessages (blob : Blob) (threshold : Nat) : List Bytes :=
  blob.shares.map Share.message ++
    nodesMessages (blob.shares.map Share.node) blob.shareCount threshold

/-- Blobs with the same shares are equal. -/
theorem Blob.eq_of_shares_eq {blob other : Blob} (writable : blob.IsWritable)
    (otherWritable : other.IsWritable) (same : blob.shares = other.shares) : blob = other := by
  have stands : blob.shares <+: blob.shares := List.prefix_rfl
  have otherStands : other.shares <+: blob.shares := same ▸ List.prefix_rfl
  obtain ⟨namespaces, versions, data⟩ := Sparse.sharesOf_unique writable.1 writable.2
    otherWritable.1 otherWritable.2 stands otherStands
  exact Blob.ext namespaces data versions

/-- The subtrees of a blob stand over the leaves of its shares, and none is empty. -/
theorem Blob.subtrees_of_shares {blob : Blob} (nonempty : blob.data ≠ []) {threshold : Nat}
    {part : List NamespacedHash}
    (member : part ∈ subtreesOf (blob.shares.map Share.node) blob.shareCount threshold) :
    part ≠ [] ∧ part ⊆ blob.shares.map Share.node := by
  have covered : blob.shareCount ≤ (blob.shares.map Share.node).length := by
    rw [List.length_map, Blob.length_shares nonempty]
  exact ⟨ne_nil_of_mem_subtreesOf covered member, subset_of_mem_runs member⟩

/-- Put together, the subtrees of a blob are the leaves of its shares, however they are grouped. -/
theorem Blob.flatten_subtrees {blob : Blob} (nonempty : blob.data ≠ []) (threshold : Nat) :
    (subtreesOf (blob.shares.map Share.node) blob.shareCount threshold).flatten =
      blob.shares.map Share.node := by
  rw [flatten_subtreesOf, ← Blob.length_shares nonempty, List.take_of_length_le (by simp)]

section Committed

variable {blob other : Blob} {threshold otherThreshold : Nat} (nonempty : blob.data ≠ [])
  (otherNonempty : other.data ≠ [])
  (free : Sha256.CollisionFree
    (blob.commitmentMessages threshold ++ other.commitmentMessages otherThreshold))
  (same : nodesCommitment (blob.shares.map Share.node) blob.shareCount threshold =
    nodesCommitment (other.shares.map Share.node) other.shareCount otherThreshold)
include nonempty otherNonempty free same

/-- Blobs with one commitment have the same subtrees when no messages collide. -/
theorem Blob.subtrees_eq :
    subtreesOf (blob.shares.map Share.node) blob.shareCount threshold =
      subtreesOf (other.shares.map Share.node) other.shareCount otherThreshold := by
  have leaves : ∀ part ∈ subtreesOf (blob.shares.map Share.node) blob.shareCount threshold ++
      subtreesOf (other.shares.map Share.node) other.shareCount otherThreshold,
      part ⊆ (blob.shares ++ other.shares).map Share.node := by
    intro part member
    rw [List.map_append]
    rcases List.mem_append.mp member with own | rest
    · exact List.subset_append_of_subset_left _ (Blob.subtrees_of_shares nonempty own).2
    · exact List.subset_append_of_subset_right _ (Blob.subtrees_of_shares otherNonempty rest).2
  refine subtrees_eq_of_commitment_eq ?nonempty leaves (free.mono ?below) (free.mono ?above) same
  case nonempty =>
    intro part member
    rcases List.mem_append.mp member with own | rest
    · exact (Blob.subtrees_of_shares nonempty own).1
    · exact (Blob.subtrees_of_shares otherNonempty rest).1
  case below =>
    intro message listed
    simp only [Blob.commitmentMessages, nodesMessages, List.map_append, List.flatMap_append,
      List.mem_append] at listed ⊢
    tauto
  case above =>
    exact append_subset_append
      (List.subset_append_of_subset_right _ (List.subset_append_right _ _))
      (List.subset_append_of_subset_right _ (List.subset_append_right _ _))

/-- Blobs with one commitment have the same shares when no messages collide. -/
theorem Blob.shares_eq_of_commitment_eq : blob.shares = other.shares := by
  have subtrees := Blob.subtrees_eq nonempty otherNonempty free same
  have nodes : blob.shares.map Share.node = other.shares.map Share.node := by
    rw [← Blob.flatten_subtrees nonempty threshold, subtrees, Blob.flatten_subtrees otherNonempty]
  exact Square.shares_eq_of_nodes_eq (free.mono (append_subset_append
    (List.subset_append_left _ _) (List.subset_append_left _ _))) nodes

end Committed

/-- Blobs with one commitment are equal, whatever the thresholds of their subtrees are, unless two
different messages that are hashed for the commitments have one digest. -/
theorem blob_eq_of_blobCommitment_eq {blob other : Blob} {threshold otherThreshold : Nat}
    {commitment otherCommitment : Digest} (made : blobCommitment blob threshold = .ok commitment)
    (otherMade : blobCommitment other otherThreshold = .ok otherCommitment) :
    (commitment = otherCommitment → blob = other) ∨ Sha256.Collision
      (blob.commitmentMessages threshold ++ other.commitmentMessages otherThreshold) := by
  obtain ⟨nonempty, writable, value⟩ := blobCommitment_eq_ok.mp made
  obtain ⟨otherNonempty, otherWritable, otherValue⟩ := blobCommitment_eq_ok.mp otherMade
  rcases Sha256.collisionFree_or_collision
    (blob.commitmentMessages threshold ++ other.commitmentMessages otherThreshold) with
    free | collision
  · left
    intro same
    have commitments := value.symm.trans (same.trans otherValue)
    exact Blob.eq_of_shares_eq writable otherWritable
      (Blob.shares_eq_of_commitment_eq nonempty otherNonempty free commitments)
  · exact .inr collision

/-- A blob of one byte and the same blob with a zero behind it have different commitments, also
under different thresholds, unless messages collide. -/
theorem blobCommitment_ne_of_zero_behind :
    let blob : Blob := ⟨Namespace.lowestUser, [7], 0⟩
    let other : Blob := ⟨Namespace.lowestUser, [7, 0], 0⟩
    ∃ commitment otherCommitment, blobCommitment blob 1 = .ok commitment ∧
      blobCommitment other 64 = .ok otherCommitment ∧
      (commitment ≠ otherCommitment ∨
        Sha256.Collision (blob.commitmentMessages 1 ++ other.commitmentMessages 64)) := by
  intro blob other
  obtain ⟨commitment, made⟩ : ∃ commitment, blobCommitment blob 1 = .ok commitment :=
    ⟨_, blobCommitment_eq_ok.mpr ⟨List.cons_ne_nil _ _, ⟨by decide, by decide⟩, rfl⟩⟩
  obtain ⟨otherCommitment, otherMade⟩ : ∃ commitment, blobCommitment other 64 = .ok commitment :=
    ⟨_, blobCommitment_eq_ok.mpr ⟨List.cons_ne_nil _ _, ⟨by decide, by decide⟩, rfl⟩⟩
  refine ⟨commitment, otherCommitment, made, otherMade, ?_⟩
  have different : blob ≠ other := by
    intro same
    have sizes : 1 = 2 := congrArg Blob.size same
    omega
  rcases blob_eq_of_blobCommitment_eq made otherMade with determined | collision
  · exact .inl fun same => different (determined same)
  · exact .inr collision

end DataSquare
