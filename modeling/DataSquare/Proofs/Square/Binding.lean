import DataSquare.Proofs.Merkle.Logged
import DataSquare.Proofs.Square.Commitment

/-!
# What a header commits to

The hash of a header commits to the roots of all rows and columns, and each root to the leaves of
its row. So two squares with one hash have the same shares, unless two of the messages that are
hashed for their headers have one digest.
-/
namespace DataSquare

open Merkle

/-- What is hashed for the leaf of a share. -/
def Share.message (share : Share) : Bytes :=
  NamespacedHash.leafMessage share.space share.bytes

namespace Square

/-- What is hashed for the shares of a square and for the nodes of the trees of its rows. -/
def rowMessages (shares : List Share) : List Bytes :=
  shares.map Share.message ++
    match AvailabilityHeader.ofShares shares with
    | .error _ => []
    | .ok (_, trees) => trees.messages

/-- What is hashed for the hash of the header of a square, the trees of columns aside. -/
def headerMessages (shares : List Share) : List Bytes :=
  rowMessages shares ++
    match AvailabilityHeader.ofShares shares with
    | .error _ => []
    | .ok (header, _) => Binary.messages header.leaves

section Header

variable {shares others : List Share} {header otherHeader : AvailabilityHeader}
  {trees otherTrees : RowTrees}

/-- What is hashed for a square that has a header. -/
theorem rowMessages_of_ofShares
    (built : AvailabilityHeader.ofShares shares = .ok (header, trees)) :
    rowMessages shares = shares.map Share.message ++ trees.messages := by
  rw [rowMessages, built]

/-- Rows of a square that has a header are clear, unless messages collide. -/
theorem clear_or_collision (built : AvailabilityHeader.ofShares shares = .ok (header, trees)) :
    trees.Clear header ∨ Sha256.Collision (rowMessages shares) := by
  by_cases ambiguous : trees.Ambiguous
  · right
    rw [rowMessages_of_ofShares built]
    exact (collision_of_ambiguous_rows built ambiguous).mono (List.subset_append_right _ _)
  · exact .inl (RowTrees.clear_of_not_ambiguous header ambiguous)

/-- What is hashed for a header. -/
theorem headerMessages_of_ofShares
    (built : AvailabilityHeader.ofShares shares = .ok (header, trees)) :
    headerMessages shares = rowMessages shares ++ Binary.messages header.leaves := by
  rw [headerMessages, built]

/-- A header has the roots of as many rows as columns, twice the width of the data. -/
theorem length_roots_of_ofShares
    (built : AvailabilityHeader.ofShares shares = .ok (header, trees)) :
    header.rowRoots.length = 2 * header.squareSize ∧
      header.columnRoots.length = 2 * header.squareSize := by
  obtain ⟨square, rows, columns, extended, found, columnsFound, rfl, rfl⟩ :=
    AvailabilityHeader.ofShares_eq_ok.mp built
  have rowCount := length_rowTrees extended found
  obtain ⟨⟨_, _, full⟩, _, lines⟩ := extendShares_eq_ok.mp extended
  have columnCount : columns.length = 2 * square.dataWidth := by
    rw [(ExtendedSquare.cellTrees_eq_ok.mp columnsFound).1]
    apply ExtendedSquare.length_columnsOf
    rw [lines]
    exact fun row => ExtendedSquare.length_of_mem_extendedRows (by rwa [List.length_map])
  simp only [AvailabilityHeader.squareSize, List.length_map, rowCount, columnCount]
  omega

/-- Squares whose rows have the same roots have the same leaves, unless messages collide. -/
theorem nodes_eq_of_rowRoots_eq
    (built : AvailabilityHeader.ofShares shares = .ok (header, trees))
    (otherBuilt : AvailabilityHeader.ofShares others = .ok (otherHeader, otherTrees))
    (free : Sha256.CollisionFree (trees.messages ++ otherTrees.messages))
    (same : header.rowRoots = otherHeader.rowRoots) :
    shares.map Share.node = others.map Share.node := by
  have width : header.squareSize = otherHeader.squareSize := by
    rw [AvailabilityHeader.squareSize, same, AvailabilityHeader.squareSize]
  obtain ⟨nonempty, _, full⟩ := AvailabilityHeader.length_of_ofShares built
  obtain ⟨_, _, otherFull⟩ := AvailabilityHeader.length_of_ofShares otherBuilt
  have rows : ∀ row < header.squareSize,
      ((shares.map Share.node).drop (row * header.squareSize)).take header.squareSize =
        ((others.map Share.node).drop (row * header.squareSize)).take header.squareSize := by
    intro row inside
    obtain ⟨root, tree, member, entry, leaves⟩ := rowTree_of_ofShares built inside
    obtain ⟨otherRoot, otherTree, otherMember, otherEntry, otherLeaves⟩ :=
      rowTree_of_ofShares otherBuilt (width ▸ inside)
    obtain ⟨rooted, length⟩ := rooted_of_ofShares built member
    obtain ⟨otherRooted, otherLength⟩ := rooted_of_ofShares otherBuilt otherMember
    have roots : tree.root = otherTree.root := by
      rw [rooted, otherRooted]
      rw [same, otherEntry] at entry
      exact (Option.some.inj entry).symm
    have equal := leaves_eq_of_namespacedRoot_eq (by rw [length, otherLength, width])
      (free.mono (List.append_subset.mpr
        ⟨fun _ hashed => List.mem_append_left _ (List.mem_flatMap.mpr ⟨_, member, hashed⟩),
          fun _ hashed => List.mem_append_right _
            (List.mem_flatMap.mpr ⟨_, otherMember, hashed⟩)⟩)) roots
    rw [← leaves, equal, width, otherLeaves]
  apply List.ext_getElem?
  intro position
  rcases Nat.lt_or_ge position (header.squareSize * header.squareSize) with inside | outside
  · have row := rows (position / header.squareSize) (Nat.div_lt_of_lt_mul inside)
    have entry := congrArg (·[position % header.squareSize]?) row
    simpa only [List.getElem?_take_of_lt (Nat.mod_lt position nonempty), List.getElem?_drop,
      Nat.div_add_mod'] using entry
  · rw [List.getElem?_eq_none (by rw [List.length_map, full]; exact outside),
      List.getElem?_eq_none (by rw [List.length_map, otherFull, ← width]; exact outside)]

/-- Squares with the same leaves have the same shares, unless messages collide. -/
theorem shares_eq_of_nodes_eq
    (free : Sha256.CollisionFree (shares.map Share.message ++ others.map Share.message))
    (same : shares.map Share.node = others.map Share.node) : shares = others := by
  have length : shares.length = others.length := by
    rw [← List.length_map (f := Share.node), same, List.length_map]
  apply List.ext_getElem length
  intro position inside otherInside
  have node : shares[position].node = others[position].node := by
    have entry := congrArg (·[position]?) same
    simpa [inside, otherInside] using entry
  exact Share.ext (NamespacedHash.leaf_injective free
    (List.mem_append_left _ (List.mem_map_of_mem (List.getElem_mem inside)))
    (List.mem_append_right _ (List.mem_map_of_mem (List.getElem_mem otherInside))) node).2

/-- Headers with one hash are equal and belong to squares with the same shares, unless messages
that are hashed for them collide. -/
theorem shares_eq_of_hash_eq
    (built : AvailabilityHeader.ofShares shares = .ok (header, trees))
    (otherBuilt : AvailabilityHeader.ofShares others = .ok (otherHeader, otherTrees))
    (free : Sha256.CollisionFree (headerMessages shares ++ headerMessages others))
    (same : header.hash = otherHeader.hash) : shares = others := by
  rw [headerMessages_of_ofShares built, headerMessages_of_ofShares otherBuilt,
    rowMessages_of_ofShares built, rowMessages_of_ofShares otherBuilt] at free
  have leaves := Binary.items_eq_of_root_eq (free.mono (by
    intro message member
    rcases List.mem_append.mp member with own | other
    · simp [own]
    · simp [other])) same
  have roots : header.rowRoots ++ header.columnRoots =
      otherHeader.rowRoots ++ otherHeader.columnRoots :=
    List.map_injective_iff.mpr (fun _ _ => NamespacedHash.bytes_injective) leaves
  obtain ⟨rows, columns⟩ := length_roots_of_ofShares built
  obtain ⟨otherRows, otherColumns⟩ := length_roots_of_ofShares otherBuilt
  have count := congrArg List.length roots
  rw [List.length_append, List.length_append] at count
  apply shares_eq_of_nodes_eq (free.mono _) (nodes_eq_of_rowRoots_eq built otherBuilt
    (free.mono _) (List.append_inj roots (by omega)).1)
  · intro message member
    rcases List.mem_append.mp member with own | other
    · exact List.mem_append_left _ (List.mem_append_left _ (List.mem_append_left _ own))
    · exact List.mem_append_right _ (List.mem_append_left _ (List.mem_append_left _ other))
  · intro message member
    rcases List.mem_append.mp member with own | other
    · exact List.mem_append_left _ (List.mem_append_left _ (List.mem_append_right _ own))
    · exact List.mem_append_right _ (List.mem_append_left _ (List.mem_append_right _ other))

end Header

end Square

/-- What is hashed for the commitment of the first shares of a list, their leaves aside. -/
def nodesMessages (nodes : List NamespacedHash) (count threshold : Nat) : List Bytes :=
  (subtreesOf nodes count threshold).flatMap namespacedMessages ++
    Binary.messages (((subtreesOf nodes count threshold).map namespacedRoot).map
      NamespacedHash.bytes)

/-- Subtrees over the leaves of shares are the same when their roots commit to the same, unless
messages that are hashed for them collide. -/
theorem subtrees_eq_of_commitment_eq {shares : List Share}
    {parts others : List (List NamespacedHash)}
    (nonempty : ∀ part ∈ parts ++ others, part ≠ [])
    (leaves : ∀ part ∈ parts ++ others, part ⊆ shares.map Share.node)
    (free : Sha256.CollisionFree (shares.map Share.message ++
      (parts ++ others).flatMap namespacedMessages))
    (above : Sha256.CollisionFree (
      Binary.messages ((parts.map namespacedRoot).map NamespacedHash.bytes) ++
        Binary.messages ((others.map namespacedRoot).map NamespacedHash.bytes)))
    (same : commitmentOfRoots (parts.map namespacedRoot) =
      commitmentOfRoots (others.map namespacedRoot)) : parts = others := by
  have roots : parts.map namespacedRoot = others.map namespacedRoot :=
    List.map_injective_iff.mpr (fun _ _ => NamespacedHash.bytes_injective)
      (Binary.items_eq_of_root_eq above same)
  have length : parts.length = others.length := by
    rw [← List.length_map (f := namespacedRoot), roots, List.length_map]
  apply List.ext_getElem length
  intro position inside otherInside
  have member := List.mem_append_left others (List.getElem_mem inside)
  have otherMember := List.mem_append_right parts (List.getElem_mem otherInside)
  have root := congrArg (·[position]?) roots
  simp only [List.getElem?_map, List.getElem?_eq_getElem inside,
    List.getElem?_eq_getElem otherInside, Option.map_some, Option.some.injEq] at root
  have nodes : Sha256.CollisionFree (shares.map Share.message ++
      (namespacedMessages parts[position] ++ namespacedMessages others[position])) := by
    refine free.mono fun message listed => ?_
    rcases List.mem_append.mp listed with leaf | inner
    · exact List.mem_append_left _ leaf
    · rcases List.mem_append.mp inner with own | rest
      · exact List.mem_append_right _ (List.mem_flatMap.mpr ⟨_, member, own⟩)
      · exact List.mem_append_right _ (List.mem_flatMap.mpr ⟨_, otherMember, rest⟩)
  refine leaves_eq_of_namespacedRoot_eq_of_hashed (nonempty _ member) (nonempty _ otherMember) nodes
    (fun hash listed => ?_) root
  have node : hash ∈ shares.map Share.node :=
    (List.mem_append.mp listed).elim (fun own => leaves _ member own)
      fun rest => leaves _ otherMember rest
  obtain ⟨share, own, rfl⟩ := List.mem_map.mp node
  exact ⟨share.space, share.bytes, rfl, List.mem_map_of_mem own⟩

/-- The commitment of the first shares of a list tells how many there are, unless messages that are
hashed for it collide. -/
theorem count_eq_of_nodesCommitment_eq {shares : List Share} {one other threshold : Nat}
    (free : Sha256.CollisionFree (shares.map Share.message ++
      (nodesMessages (shares.map Share.node) one threshold ++
        nodesMessages (shares.map Share.node) other threshold)))
    (covered : one ≤ shares.length) (otherCovered : other ≤ shares.length)
    (same : nodesCommitment (shares.map Share.node) one threshold =
      nodesCommitment (shares.map Share.node) other threshold) : one = other := by
  rw [← List.length_map (f := Share.node)] at covered otherCovered
  have equal : subtreesOf (shares.map Share.node) one threshold =
      subtreesOf (shares.map Share.node) other threshold := by
    have inside : ∀ part ∈ subtreesOf (shares.map Share.node) one threshold ++
        subtreesOf (shares.map Share.node) other threshold, part ⊆ shares.map Share.node := by
      intro part member
      rcases List.mem_append.mp member with own | rest
      · exact subset_of_mem_runs own
      · exact subset_of_mem_runs rest
    refine subtrees_eq_of_commitment_eq (fun part member => ?_) inside
      (free.mono fun message listed => ?_) (free.mono fun message listed => ?_) same
    · rcases List.mem_append.mp member with own | rest
      · exact ne_nil_of_mem_subtreesOf covered own
      · exact ne_nil_of_mem_subtreesOf otherCovered rest
    · simp only [nodesMessages, List.flatMap_append, List.mem_append] at listed ⊢
      tauto
    · simp only [nodesMessages, List.mem_append] at listed ⊢
      tauto
  have counts := congrArg (fun parts => parts.flatten.length) equal
  simp only [flatten_subtreesOf, List.length_take] at counts
  omega

end DataSquare
