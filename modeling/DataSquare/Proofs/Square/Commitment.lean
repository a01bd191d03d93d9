import DataSquare.Proofs.Share.Sparse
import DataSquare.Proofs.Square.Header
import DataSquare.Proofs.Square.MountainRange
import DataSquare.Proofs.Square.Ordered

/-!
# Commitments found in a square

A validator reads the subtrees of a blob out of the rows of the square. Subtrees that start at
multiples of their widths are nodes of the trees of their rows, whose leaves are the shares. So
the commitment in the square is there exactly when the first subtree is aligned, and it is the
one computed from the blob unless two rows are taken for one another.
-/
namespace DataSquare

open Merkle

section Runs

variable {α : Type}

/-- The runs of some widths need no more of a list than the widths cover. -/
theorem runs_take {widths : List Nat} {count : Nat} (covered : widths.sum ≤ count)
    (items : List α) : runs widths (items.take count) = runs widths items := by
  induction widths generalizing items count with
  | nil => rfl
  | cons width widths ih =>
    rw [List.sum_cons] at covered
    rw [runs, runs, List.take_take, Nat.min_eq_left (by omega), List.drop_take,
      ih (by omega)]

/-- The runs of some widths put together are the part of a list that they cover. -/
theorem flatten_runs (widths : List Nat) (items : List α) :
    (runs widths items).flatten = items.take widths.sum := by
  induction widths generalizing items with
  | nil => rfl
  | cons width widths ih =>
    rw [runs, List.flatten_cons, ih, List.sum_cons, List.take_add]

/-- The runs of a list hold entries of it. -/
theorem subset_of_mem_runs {widths : List Nat} {items part : List α}
    (member : part ∈ runs widths items) : part ⊆ items := by
  induction widths generalizing items with
  | nil => contradiction
  | cons width widths ih =>
    rcases List.mem_cons.mp member with rfl | later
    · exact List.take_subset width items
    · exact fun entry inside => List.drop_subset width items (ih later inside)

/-- No run is empty when all widths are positive and the list is long enough. -/
theorem ne_nil_of_mem_runs {widths : List Nat} {items part : List α}
    (positive : ∀ width ∈ widths, 0 < width) (covered : widths.sum ≤ items.length)
    (member : part ∈ runs widths items) : part ≠ [] := by
  induction widths generalizing items with
  | nil => contradiction
  | cons width widths ih =>
    rw [List.sum_cons] at covered
    have first := positive width List.mem_cons_self
    rcases List.mem_cons.mp member with rfl | later
    · apply List.ne_nil_of_length_pos
      rw [List.length_take]
      omega
    · exact ih (fun width inside => positive width (List.mem_cons_of_mem _ inside))
        (by rw [List.length_drop]; omega) later

end Runs

section Square

variable {shares : List Share} {header : AvailabilityHeader} {trees : RowTrees}

/-- The root of a row of the data leads to a tree with as many leaves as the extended square is
wide. It is over the shares of the row when rows of the data are clear. -/
theorem rowTree_found (built : AvailabilityHeader.ofShares shares = .ok (header, trees))
    {row : Nat} (inside : row < header.squareSize) :
    ∃ tree, header.rowRoots[row]?.bind trees.find? = some tree ∧
      tree.leaves.length = 2 * header.squareSize ∧
      (trees.Clear header → tree.leaves.take header.squareSize =
        ((shares.map Share.node).drop (row * header.squareSize)).take header.squareSize) := by
  obtain ⟨root, own, listed, entry, leaves⟩ := rowTree_of_ofShares built inside
  obtain ⟨tree, member, found⟩ := RowTrees.exists_find? listed
  refine ⟨tree, ?_, (rooted_of_ofShares built member).2, fun clear => ?_⟩
  · rw [entry]
    exact found
  · rw [clear row inside root entry tree own member listed]
    exact leaves

/-- There is a subtree of the square only where it starts at a multiple of its width. -/
theorem dvd_of_subtreeRootAt_eq_ok {start width : Nat} {root : NamespacedHash}
    (divides : width ∣ header.squareSize)
    (found : subtreeRootAt trees header start width = .ok root) : width ∣ start := by
  unfold subtreeRootAt at found
  dsimp only at found
  split at found
  · contradiction
  · split at found
    · contradiction
    · rename_i tree _
      obtain ⟨_, _, aligned, _, _⟩ :=
        NamespacedTree.subtreeRoot_eq_ok.mp (mapError_eq_ok.mp found)
      rw [Nat.add_sub_cancel_left] at aligned
      exact (Nat.dvd_mod_iff divides).mp aligned

/-- There is a subtree of the square wherever it starts at a multiple of its width, with the
root over its shares when rows are clear. -/
theorem subtreeRootAt_of_dvd
    (built : AvailabilityHeader.ofShares shares = .ok (header, trees))
    (power : isPowerOfTwo header.squareSize = true) {start width : Nat}
    (inside : start + width ≤ header.squareSize * header.squareSize)
    (widthPower : isPowerOfTwo width = true) (aligned : width ∣ start)
    (divides : width ∣ header.squareSize) :
    ∃ root, subtreeRootAt trees header start width = .ok root ∧
      (trees.Clear header →
        root = namespacedRoot (((shares.map Share.node).drop start).take width)) := by
  have positive := pos_of_isPowerOfTwo power
  have narrow := pos_of_isPowerOfTwo widthPower
  have row : start / header.squareSize < header.squareSize :=
    Nat.div_lt_of_lt_mul (by omega)
  have room := mod_add_le_of_dvd positive aligned divides
  obtain ⟨tree, found, length, leaves⟩ := rowTree_found built row
  have doubled : isPowerOfTwo (2 * header.squareSize) = true := by
    obtain ⟨exponent, square⟩ := (isPowerOfTwo_iff_two_pow _).mp power
    rw [square, ← Nat.pow_succ']
    exact isPowerOfTwo_two_pow _
  refine ⟨namespacedRoot ((tree.leaves.drop (start % header.squareSize)).take width), ?_, ?_⟩
  · unfold subtreeRootAt
    dsimp only
    rw [if_neg (show ¬ header.squareSize < start % header.squareSize + width by omega), found]
    refine mapError_eq_ok.mpr (NamespacedTree.subtreeRoot_eq_ok.mpr ?_)
    rw [Nat.add_sub_cancel_left, length]
    exact ⟨⟨by omega, by omega⟩, widthPower, (Nat.dvd_mod_iff divides).mpr aligned, doubled, rfl⟩
  · intro clear
    -- The leaves of the subtree lie in the data half of the row, which is a run of the shares.
    have half : (tree.leaves.drop (start % header.squareSize)).take width =
        ((tree.leaves.take header.squareSize).drop (start % header.squareSize)).take width := by
      rw [List.drop_take, List.take_take, Nat.min_eq_left (by omega)]
    rw [half, leaves clear, List.drop_take, List.take_take, Nat.min_eq_left (by omega),
      List.drop_drop, Nat.div_add_mod']

/-- Aligned subtrees of the square are all found, with the roots over their shares when rows are
clear. -/
theorem subtreeRootsFrom_of_aligned
    (built : AvailabilityHeader.ofShares shares = .ok (header, trees))
    (power : isPowerOfTwo header.squareSize = true) {start : Nat} {widths : List Nat}
    (inside : start + widths.sum ≤ header.squareSize * header.squareSize)
    (aligned : AlignedFrom start widths) (divide : ∀ width ∈ widths, width ∣ header.squareSize) :
    ∃ roots, subtreeRootsFrom trees header start widths = .ok roots ∧
      (trees.Clear header →
        roots = (runs widths ((shares.map Share.node).drop start)).map namespacedRoot) := by
  induction widths generalizing start with
  | nil => exact ⟨[], rfl, fun _ => rfl⟩
  | cons width widths ih =>
    obtain ⟨widthPower, multiple, rest⟩ := aligned
    rw [List.sum_cons] at inside
    obtain ⟨root, found, value⟩ := subtreeRootAt_of_dvd built power (by omega) widthPower multiple
      (divide width List.mem_cons_self)
    obtain ⟨roots, others, values⟩ := ih (by omega) rest
      fun width member => divide width (List.mem_cons_of_mem _ member)
    refine ⟨root :: roots, ?_, fun clear => ?_⟩
    · rw [subtreeRootsFrom, found]
      simp only [others]
      rfl
    · rw [value clear, values clear, runs, List.map_cons, List.drop_drop]

/-- The leaves of the subtrees of the first shares of a list. -/
def subtreesOf (nodes : List NamespacedHash) (count threshold : Nat) :
    List (List NamespacedHash) :=
  runs (mountainRange count (subtreeWidth count threshold)) nodes

/-- The commitment of the first shares of a list. -/
def nodesCommitment (nodes : List NamespacedHash) (count threshold : Nat) : Digest :=
  commitmentOfRoots ((subtreesOf nodes count threshold).map namespacedRoot)

/-- The subtrees of shares put together are the shares. -/
theorem flatten_subtreesOf (nodes : List NamespacedHash) (count threshold : Nat) :
    (subtreesOf nodes count threshold).flatten = nodes.take count := by
  have positive := pos_of_isPowerOfTwo (isPowerOfTwo_subtreeWidth count threshold)
  rw [subtreesOf, flatten_runs, sum_mountainRange count positive]

/-- No subtree is empty when there are as many shares. -/
theorem ne_nil_of_mem_subtreesOf {nodes part : List NamespacedHash} {count threshold : Nat}
    (covered : count ≤ nodes.length) (member : part ∈ subtreesOf nodes count threshold) :
    part ≠ [] := by
  have power := isPowerOfTwo_subtreeWidth count threshold
  have positive := pos_of_isPowerOfTwo power
  refine ne_nil_of_mem_runs (fun width inside => ?_) ?_ member
  · exact Nat.pos_of_dvd_of_pos (dvd_of_mem_mountainRange power inside) positive
  · rw [sum_mountainRange count positive]
    exact covered

/-- A run of shares has the commitment of the roots of its subtrees when it ends in the square and
all numbers fit 64 bits. -/
theorem squareCommitment_eq_ok {start count threshold : Nat} {commitment : Digest} :
    squareCommitment trees header start count threshold = .ok commitment ↔
      0 < count ∧ start + count ≤ header.squareSize * header.squareSize ∧
        header.squareSize * header.squareSize < UInt64.size ∧
        ∃ largest, subtreeWidth? count threshold = some largest ∧
          ∃ roots, subtreeRootsFrom trees header start (mountainRange count largest) = .ok roots ∧
            commitment = commitmentOfRoots roots := by
  unfold squareCommitment
  constructor
  · intro found
    split at found
    · contradiction
    · split at found
      · rename_i nonzero _ _ shares stop counted ended
        obtain ⟨words, rfl⟩ := word?_eq_some_iff.mp counted
        obtain ⟨_, rfl⟩ := word?_eq_some_iff.mp ended
        split at found
        · contradiction
        · split at found
          · contradiction
          · rename_i inside _ largest chosen
            obtain ⟨roots, listed, rfl⟩ := map_eq_ok.mp found
            exact ⟨by omega, by omega, words, largest, chosen, roots, listed, rfl⟩
      · contradiction
  · rintro ⟨nonzero, inside, words, largest, chosen, roots, listed, rfl⟩
    have counted := word?_eq_some_iff.mpr ⟨words, rfl⟩
    have ended := word?_eq_some_iff.mpr ⟨inside.trans_lt words, rfl⟩
    rw [if_neg (by omega)]
    simp only [counted, ended, chosen, if_neg (Nat.not_lt.mpr inside)]
    exact map_eq_ok.mpr ⟨roots, listed, rfl⟩

/-- A square with a header has at most 128 · 128 shares. -/
theorem mul_self_le_of_ofShares (built : AvailabilityHeader.ofShares shares = .ok (header, trees)) :
    header.squareSize * header.squareSize ≤ 128 * 128 :=
  have narrow := (AvailabilityHeader.length_of_ofShares built).2.1
  Nat.mul_le_mul narrow narrow

/-- A run of shares of the square has a commitment when it starts at a multiple of the largest
width of its subtrees. It is that of the shares when rows are clear. -/
theorem squareCommitment_of_dvd
    (built : AvailabilityHeader.ofShares shares = .ok (header, trees))
    (power : isPowerOfTwo header.squareSize = true) {start count threshold : Nat}
    (nonzero : 0 < count) (inside : start + count ≤ header.squareSize * header.squareSize)
    (aligned : subtreeWidth count threshold ∣ start) :
    ∃ commitment, squareCommitment trees header start count threshold = .ok commitment ∧
      (trees.Clear header → commitment =
        nodesCommitment ((shares.map Share.node).drop start) count threshold) := by
  have widthPower := isPowerOfTwo_subtreeWidth count threshold
  have positive := pos_of_isPowerOfTwo widthPower
  have first : firstWidth count (subtreeWidth count threshold) = subtreeWidth count threshold :=
    if_pos (subtreeWidth_le_self nonzero threshold)
  have largest := subtreeWidth_dvd_squareSize power (by omega : count ≤ _) threshold
  have range : AlignedFrom start (mountainRange count (subtreeWidth count threshold)) :=
    alignedFrom_mountainRange widthPower (by rwa [first])
  obtain ⟨roots, found, values⟩ := subtreeRootsFrom_of_aligned built power
    (by rw [sum_mountainRange count positive]; exact inside) range fun width member =>
      Nat.dvd_trans (dvd_of_mem_mountainRange widthPower member) largest
  refine ⟨commitmentOfRoots roots, ?_, fun clear => by rw [values clear]; rfl⟩
  have few := mul_self_le_of_ofShares built
  have words : 128 * 128 < UInt64.size := by decide
  rw [squareCommitment_eq_ok]
  exact ⟨nonzero, inside, few.trans_lt words, _, subtreeWidth?_of_le (by omega) threshold, roots,
    found, rfl⟩

/-- A run of shares of the square has a commitment only when it starts at a multiple of the
largest width of its subtrees. -/
theorem dvd_of_squareCommitment_eq_ok (power : isPowerOfTwo header.squareSize = true)
    {start count threshold : Nat} {commitment : Digest}
    (found : squareCommitment trees header start count threshold = .ok commitment) :
    0 < count ∧ start + count ≤ header.squareSize * header.squareSize ∧
      subtreeWidth count threshold ∣ start := by
  obtain ⟨nonzero, inside, _, width, chosen, roots, listed, _⟩ := squareCommitment_eq_ok.mp found
  obtain ⟨_, _, rfl⟩ := subtreeWidth?_eq_some_iff.mp chosen
  have positive := pos_of_isPowerOfTwo (isPowerOfTwo_subtreeWidth count threshold)
  have first : firstWidth count (subtreeWidth count threshold) =
      subtreeWidth count threshold := if_pos (subtreeWidth_le_self nonzero threshold)
  refine ⟨nonzero, inside, ?_⟩
  rw [mountainRange_of_pos nonzero positive, first, subtreeRootsFrom] at listed
  split at listed
  · contradiction
  · rename_i root value
    exact dvd_of_subtreeRootAt_eq_ok
      (subtreeWidth_dvd_squareSize power (by omega) threshold) value

/-- There is a commitment to a blob exactly when it has data and is written, and then it is that of
the nodes of its shares. -/
theorem blobCommitment_eq_ok {blob : Blob} {threshold : Nat} {commitment : Digest} :
    blobCommitment blob threshold = .ok commitment ↔ blob.data ≠ [] ∧ blob.IsWritable ∧
      commitment = nodesCommitment (blob.shares.map Share.node) blob.shareCount threshold := by
  unfold blobCommitment
  by_cases empty : blob.data = []
  · simp [empty]
  · rw [if_neg (by simpa using empty)]
    by_cases writable : blob.IsWritable
    · have nodes : blob.shares.map (fun share => NamespacedHash.leaf blob.ns share.bytes) =
          blob.shares.map Share.node :=
        List.map_congr_left fun share member =>
          (Share.node_of_ns (Blob.ns_of_mem_shares member)).symm
      have few : blob.shareCount ≤ 2 ^ 63 :=
        (sparseSharesNeeded_le _).trans (writable.1.le.trans (by decide))
      rw [Sparse.splitBlob_eq_ok.mpr ⟨writable, rfl⟩]
      simp only [nodes, Blob.length_shares empty, subtreeWidth?_of_le few threshold,
        Except.ok.injEq, ne_eq, empty, not_false_eq_true, writable, true_and]
      exact eq_comm
    · cases split : Sparse.splitBlob blob with
      | error cause => simp [writable]
      | ok shares => exact absurd (Sparse.splitBlob_eq_ok.mp split).1 writable

/-- There is a commitment to every blob that has data and is written. -/
theorem exists_blobCommitment {blob : Blob} (nonempty : blob.data ≠ []) (writable : blob.IsWritable)
    (threshold : Nat) : ∃ commitment, blobCommitment blob threshold = .ok commitment :=
  ⟨_, blobCommitment_eq_ok.mpr ⟨nonempty, writable, rfl⟩⟩

/-- The commitment of shares at the front of a list is that of the list. -/
theorem nodesCommitment_take (nodes : List NamespacedHash) (count threshold : Nat) :
    nodesCommitment (nodes.take count) count threshold =
      nodesCommitment nodes count threshold := by
  have positive := pos_of_isPowerOfTwo (isPowerOfTwo_subtreeWidth count threshold)
  rw [nodesCommitment, subtreesOf, runs_take (Nat.le_of_eq (sum_mountainRange count positive))]
  rfl

/-- The commitment of shares that stand in a square is that of the nodes from their start on. -/
theorem nodesCommitment_of_stands {placed : List Share} {start : Nat}
    (stands : (shares.drop start).take placed.length = placed) (threshold : Nat) :
    nodesCommitment ((shares.map Share.node).drop start) placed.length threshold =
      nodesCommitment (placed.map Share.node) placed.length threshold := by
  rw [← nodesCommitment_take, ← List.map_drop, ← List.map_take, stands]

end Square

/-- A blob that stands in a square has a commitment there exactly when it starts at a multiple of
the largest width of its subtrees, and so wherever it is aligned. That commitment is the one
computed from the blob, unless two rows with different leaves have one root, for which two messages
have one digest. -/
theorem squareCommitment_of_placed {shares placed : List Share} {header : AvailabilityHeader}
    {trees : RowTrees} {squareSize start : Nat} {blob : Blob}
    (built : AvailabilityHeader.ofShares shares = .ok (header, trees))
    (power : isPowerOfTwo squareSize = true) (full : shares.length = squareSize * squareSize)
    (nonempty : blob.data ≠ []) (written : Sparse.splitBlob blob = .ok placed)
    (stands : (shares.drop start).take placed.length = placed) (threshold : Nat) :
    ((∃ commitment,
      squareCommitment trees header start placed.length threshold = .ok commitment) ↔
        subtreeWidth placed.length threshold ∣ start) ∧
    (blobAlignment placed.length squareSize ∣ start → ∃ commitment,
      squareCommitment trees header start placed.length threshold = .ok commitment) ∧
    ∀ commitment, squareCommitment trees header start placed.length threshold = .ok commitment →
      blobCommitment blob threshold = .ok commitment ∨
        trees.Ambiguous ∧ Sha256.Collision trees.messages := by
  obtain rfl := AvailabilityHeader.squareSize_of_ofShares built full
  have several : 0 < placed.length := by
    rw [(Sparse.write_eq_ok.mp written).2.2, Sparse.sharesOf]
    exact Nat.succ_pos _
  have inside : start + placed.length ≤ header.squareSize * header.squareSize := by
    have length := congrArg List.length stands
    rw [List.length_take, List.length_drop, full] at length
    omega
  have found (aligned : subtreeWidth placed.length threshold ∣ start) :=
    squareCommitment_of_dvd built power several inside aligned
  refine ⟨⟨fun found => ?_, fun aligned => ?_⟩, fun aligned => ?_, fun commitment result => ?_⟩
  · obtain ⟨commitment, result⟩ := found
    exact (dvd_of_squareCommitment_eq_ok power result).2.2
  · obtain ⟨commitment, result, _⟩ := found aligned
    exact ⟨commitment, result⟩
  · obtain ⟨commitment, result, _⟩ := found
      (Nat.dvd_trans (subtreeWidth_dvd_blobAlignment power (by omega) threshold) aligned)
    exact ⟨commitment, result⟩
  · obtain ⟨other, again, value⟩ := found (dvd_of_squareCommitment_eq_ok power result).2.2
    obtain rfl : commitment = other := Except.ok.inj (result.symm.trans again)
    by_cases clear : trees.Ambiguous
    · exact .inr ⟨clear, collision_of_ambiguous_rows built clear⟩
    · left
      obtain ⟨writable, rfl⟩ := Sparse.splitBlob_eq_ok.mp written
      rw [value (RowTrees.clear_of_not_ambiguous header clear), nodesCommitment_of_stands stands,
        blobCommitment_eq_ok, Blob.length_shares nonempty]
      exact ⟨nonempty, writable, rfl⟩

/-- The blob of a thousand bytes takes three shares, of which the first two form one subtree, at the
start of a square of width two. -/
theorem squareCommitment_of_thousand_bytes :
    let blob : Blob := ⟨Namespace.lowestUser, List.replicate 1000 7, 0⟩
    ∃ placed header trees, Sparse.splitBlob blob = .ok placed ∧ placed.length = 3 ∧
      AvailabilityHeader.ofShares (placed ++ Share.tailPadding 1) = .ok (header, trees) ∧
      (∃ commitment, squareCommitment trees header 0 placed.length 1 = .ok commitment ∧
        (blobCommitment blob 1 = .ok commitment ∨
          trees.Ambiguous ∧ Sha256.Collision trees.messages)) := by
  intro blob
  have nonempty : blob.data ≠ [] := List.cons_ne_nil _ _
  have size : blob.data.length = 1000 := List.length_replicate
  have written : Sparse.splitBlob blob = .ok (Sparse.sharesOf blob.ns 0 blob.data) :=
    Sparse.write_eq_ok.mpr ⟨by rw [size]; decide, by decide, rfl⟩
  have length : (Sparse.sharesOf blob.ns 0 blob.data).length = 3 := by
    rw [Sparse.length_sharesOf nonempty, size]
    rfl
  have tail : ∀ share ∈ Share.tailPadding 1, share.ns = .ok Namespace.tailPadding := by
    intro share member
    rw [List.eq_of_mem_replicate member]
    exact Share.ns_build
  have ordered : Ordered (Sparse.sharesOf blob.ns 0 blob.data ++ Share.tailPadding 1) := by
    apply (Ordered.of_ns fun _ => Sparse.ns_of_mem_sharesOf).append (Ordered.of_ns tail)
    intro left memLeft right memRight
    rw [Share.space_of_ns (Sparse.ns_of_mem_sharesOf memLeft),
      Share.space_of_ns (tail right memRight)]
    decide
  have full : (Sparse.sharesOf blob.ns 0 blob.data ++ Share.tailPadding 1).length = 2 * 2 := by
    rw [List.length_append, length]
    rfl
  obtain ⟨header, trees, built⟩ := ordered.exists_ofShares (by decide) (by decide) full
  have stands : ((Sparse.sharesOf blob.ns 0 blob.data ++ Share.tailPadding 1).drop 0).take
      (Sparse.sharesOf blob.ns 0 blob.data).length = Sparse.sharesOf blob.ns 0 blob.data := by
    rw [List.drop_zero, List.take_left]
  have placed := squareCommitment_of_placed built (by decide) full nonempty written stands 1
  obtain ⟨commitment, found⟩ := placed.2.1 (Nat.dvd_zero _)
  exact ⟨_, header, trees, written, length, built, commitment, found,
    placed.2.2 commitment found⟩

end DataSquare
