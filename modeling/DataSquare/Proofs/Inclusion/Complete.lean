import DataSquare.Proofs.Inclusion.Consecutive
import DataSquare.Proofs.Square.Commitment
import DataSquare.Proofs.Square.Split

/-!
# Share proofs are complete

A range of shares is proven row by row: the rows that it touches are cut out of it, each is proven
under the root of the row, and put together they are the range again. So every range of shares in
one namespace has a proof, wherever in its first and last row it starts and ends, and this proof is
accepted unless rows are taken for one another. All other ranges are refused: for their ends, or
for the first share in another namespace.
-/
namespace DataSquare

open Merkle

section RowSlices

variable {α : Type} {items : List α}

/-- A part of a list and the part after it make up the part from the start of the one to the end of
the other. -/
theorem drop_take_append {low middle high : Nat} (first : low ≤ middle) (second : middle ≤ high) :
    (items.drop low).take (middle - low) ++ (items.drop middle).take (high - middle) =
      (items.drop low).take (high - low) := by
  have count : high - low = middle - low + (high - middle) := by omega
  rw [count, List.take_add, List.drop_drop, Nat.add_sub_cancel' first]

/-- A range that is not empty has a first entry. -/
theorem exists_range_cons {start stop : Nat} (nonempty : start < stop) (inside : stop ≤ items.length) :
    ∃ first rest, (items.drop start).take (stop - start) = first :: rest := by
  have positive : 0 < ((items.drop start).take (stop - start)).length := by
    rw [List.length_take, List.length_drop]
    omega
  exact List.exists_cons_of_length_pos positive

/-- An entry of a range is found in the list from its start on. -/
theorem getElem?_of_range {start stop index : Nat} {item : α}
    (listed : ((items.drop start).take (stop - start))[index]? = some item) :
    index < stop - start ∧ items[start + index]? = some item := by
  obtain ⟨bound, entry⟩ := getElem?_of_take listed
  exact ⟨bound, List.getElem?_drop.symm.trans entry⟩

/-- What a range from `start` up to `stop` has in common with a row. -/
def rowSlice (items : List α) (width start stop row : Nat) : List α :=
  (items.drop (max start (row * width))).take
    (min stop (row * width + width) - max start (row * width))

/-- What a range has in common with consecutive rows, the first of which ends after the start of the
range, is what it has in common with all of these together. -/
theorem flatten_rowSlices_from {width start stop row : Nat} (below : start < row * width + width)
    (count : Nat) : ((List.range' row count).map (rowSlice items width start stop)).flatten =
      (items.drop (max start (row * width))).take
        (min stop ((row + count) * width) - max start (row * width)) := by
  induction count with
  | zero =>
    have nothing : min stop ((row + 0) * width) - max start (row * width) = 0 := by
      rw [Nat.add_zero]
      omega
    rw [nothing]
    rfl
  | succ count ih =>
    have next : (row + (count + 1)) * width = (row + count) * width + width := by
      rw [← Nat.add_assoc, Nat.add_mul, Nat.one_mul]
    rw [List.range'_1_concat, List.map_append, List.flatten_append, ih, List.map_singleton,
      List.flatten_singleton, rowSlice, next]
    rcases Nat.eq_zero_or_pos count with rfl | positive
    · have nothing : min stop ((row + 0) * width) - max start (row * width) = 0 := by
        rw [Nat.add_zero]
        omega
      rw [nothing, List.take_zero, List.nil_append, Nat.add_zero]
    · have later : row * width + width ≤ (row + count) * width := by
        rw [← Nat.succ_mul]
        exact Nat.mul_le_mul_right width (by omega)
      have line : max start ((row + count) * width) = (row + count) * width := by omega
      rw [line]
      rcases Nat.le_total stop ((row + count) * width) with ended | goes
      · have nothing : min stop ((row + count) * width + width) - (row + count) * width = 0 := by omega
        have same : min stop ((row + count) * width) = min stop ((row + count) * width + width) := by
          omega
        rw [nothing, List.take_zero, List.append_nil, same]
      · rw [Nat.min_eq_right goes]
        exact drop_take_append (by omega) (by omega)

/-- The rows that a range touches make it up. -/
theorem flatten_rowSlices {width start stop : Nat} (positive : 0 < width) (nonempty : start < stop) :
    ((List.range' (start / width) ((stop - 1) / width + 1 - start / width)).map
      (rowSlice items width start stop)).flatten = (items.drop start).take (stop - start) := by
  have rows : start / width ≤ (stop - 1) / width := Nat.div_le_div_right (by omega)
  have above : start / width * width ≤ start := Nat.div_mul_le_self start width
  have below : start < start / width * width + width := Nat.lt_div_mul_add positive
  have covers : stop - 1 < (stop - 1) / width * width + width := Nat.lt_div_mul_add positive
  have last : (start / width + ((stop - 1) / width + 1 - start / width)) * width =
      (stop - 1) / width * width + width := by
    rw [Nat.add_sub_cancel' (by omega), Nat.add_mul, Nat.one_mul]
  rw [flatten_rowSlices_from below, last, Nat.max_eq_left above, Nat.min_eq_left (by omega)]

/-- What a range has in common with a row is a part of the row. -/
theorem rowSlice_eq (items : List α) (width start stop row : Nat) :
    rowSlice items width start stop row =
      (((items.drop (row * width)).take width).drop (max start (row * width) - row * width)).take
        (min stop (row * width + width) - row * width -
          (max start (row * width) - row * width)) := by
  have fromStart : row * width + (max start (row * width) - row * width) =
      max start (row * width) := by omega
  have asMany : min (min stop (row * width + width) - row * width -
      (max start (row * width) - row * width)) (width - (max start (row * width) - row * width)) =
        min stop (row * width + width) - max start (row * width) := by omega
  rw [List.drop_take, List.take_take, List.drop_drop, fromStart, asMany, rowSlice]

/-- The nodes of what a range has in common with a row are leaves of the tree whose front is made of
the row. -/
theorem map_rowSlice_eq {β : Type} {node : α → β} {leaves : List β} {width row : Nat}
    (front : leaves.take width = ((items.map node).drop (row * width)).take width)
    (start stop : Nat) :
    (rowSlice items width start stop row).map node =
      (leaves.drop (max start (row * width) - row * width)).take
        (min stop (row * width + width) - row * width -
          (max start (row * width) - row * width)) := by
  calc (rowSlice items width start stop row).map node
    _ = ((leaves.take width).drop (max start (row * width) - row * width)).take
          (min stop (row * width + width) - row * width -
            (max start (row * width) - row * width)) := by
      rw [rowSlice_eq, front, List.map_take, List.map_drop, List.map_take, List.map_drop]
    _ = _ := by rw [List.drop_take, List.take_take, Nat.min_eq_left (by omega)]

/-- Every row between the first and the last that a range touches has something in common with
it. -/
theorem rowSlice_bounds {width start stop row : Nat} (positive : 0 < width) (nonempty : start < stop)
    (first : start / width ≤ row) (last : row ≤ (stop - 1) / width) :
    max start (row * width) < min stop (row * width + width) := by
  have below : start < start / width * width + width := Nat.lt_div_mul_add positive
  have above : (stop - 1) / width * width ≤ stop - 1 := Nat.div_mul_le_self _ width
  have lower : start / width * width ≤ row * width := Nat.mul_le_mul_right width first
  have upper : row * width ≤ (stop - 1) / width * width := Nat.mul_le_mul_right width last
  omega

/-- What a range has in common with a row is part of the range. -/
theorem mem_of_mem_rowSlice {width start stop row : Nat} (positive : 0 < width)
    (nonempty : start < stop) (first : start / width ≤ row) (last : row ≤ (stop - 1) / width)
    {item : α} (member : item ∈ rowSlice items width start stop row) :
    item ∈ (items.drop start).take (stop - start) := by
  rw [← flatten_rowSlices positive nonempty]
  have listed : row ∈ List.range' (start / width) ((stop - 1) / width + 1 - start / width) := by
    rw [List.mem_range'_1]
    omega
  exact List.mem_flatten.mpr ⟨_, List.mem_map_of_mem listed, member⟩

end RowSlices

namespace ShareProof

/-- The namespace of a share is found when it starts with one. -/
theorem shareNamespace_eq_ok {share : Share} {ns : Namespace} :
    shareNamespace share = .ok ns ↔ share.ns = .ok ns := mapError_eq_ok

/-- The check of a range passes exactly when all shares are in the namespace. -/
theorem checkNamespace_eq_ok {first : Namespace} {shares : List Share} {position : Nat} :
    checkNamespace first position shares = .ok () ↔ ∀ share ∈ shares, share.ns = .ok first := by
  induction shares generalizing position with
  | nil => simp [checkNamespace]
  | cons share shares ih =>
    rw [checkNamespace, List.forall_mem_cons, ← shareNamespace_eq_ok]
    cases shareNamespace share with
    | error cause => simp
    | ok other =>
      by_cases same : other = first
      · simp [same, ih]
      · simp [same]

/-- A range has a namespace exactly when it holds a share and all its shares are in it. -/
theorem rangeNamespace_eq_ok {shares : List Share} {start stop : Nat} {ns : Namespace} :
    rangeNamespace shares start stop = .ok ns ↔ start < stop ∧ stop ≤ shares.length ∧
      ∀ share ∈ (shares.drop start).take (stop - start), share.ns = .ok ns := by
  unfold rangeNamespace
  by_cases invalid : stop ≤ start ∨ shares.length < stop
  · rw [if_pos invalid]
    constructor
    · intro found
      cases found
    · intro found
      have ordered := found.1
      have inside := found.2.1
      omega
  · rw [if_neg invalid]
    obtain ⟨first, rest, cut⟩ := exists_range_cons (show start < stop by omega)
      (show stop ≤ shares.length by omega)
    rw [cut, List.forall_mem_cons, ← shareNamespace_eq_ok]
    dsimp only
    cases shareNamespace first with
    | error cause => simp
    | ok own =>
      dsimp only
      cases checked : checkNamespace own (start + 1) rest with
      | error cause =>
        constructor
        · intro found
          cases found
        · rintro ⟨_, _, same, others⟩
          obtain rfl := Except.ok.inj same
          rw [checkNamespace_eq_ok.mpr others] at checked
          cases checked
      | ok _ =>
        have others := checkNamespace_eq_ok.mp checked
        constructor
        · rintro same
          obtain rfl := Except.ok.inj same
          exact ⟨by omega, by omega, rfl, others⟩
        · exact fun found => found.2.2.1

/-- A check that fails on shares with namespaces names the first share in another one. -/
theorem exists_mixed_of_checkNamespace {first : Namespace} {shares : List Share} {position : Nat}
    {cause : ProveError} (stands : ∀ share ∈ shares, ∃ ns, share.ns = .ok ns)
    (failed : checkNamespace first position shares = .error cause) :
    ∃ (offset : Nat) (share : Share) (other : Namespace), shares[offset]? = some share ∧
      share.ns = .ok other ∧ other ≠ first ∧
      cause = .mixedNamespaces first other (position + offset) := by
  induction shares generalizing position with
  | nil => cases failed
  | cons share shares ih =>
    obtain ⟨⟨own, named⟩, others⟩ := List.forall_mem_cons.mp stands
    rw [checkNamespace, shareNamespace_eq_ok.mpr named] at failed
    by_cases same : own = first
    · have later := (if_neg (not_not.mpr same)).symm.trans failed
      obtain ⟨offset, found, other, entry, space, different, rfl⟩ := ih others later
      exact ⟨offset + 1, found, other, entry, space, different, by rw [Nat.add_right_comm]; rfl⟩
    · have now := (if_pos same).symm.trans failed
      exact ⟨0, share, own, rfl, named, same, (Except.error.inj now).symm⟩

/-- A range that is empty or goes past the last share is refused. -/
theorem make_of_invalid {shares : List Share} {start stop : Nat}
    (invalid : stop ≤ start ∨ shares.length < stop) :
    make shares start stop = .error (.invalidRange start stop shares.length) := by
  have refused : rangeNamespace shares start stop =
      .error (.invalidRange start stop shares.length) := if_pos invalid
  rw [make, refused]
  rfl

section Square

variable {shares : List Share} {header : AvailabilityHeader} {trees : RowTrees}
  (built : AvailabilityHeader.ofShares shares = .ok (header, trees))
include built

/-- Every share of a square that has a header is in some namespace. -/
theorem exists_ns_of_ofShares {share : Share} (member : share ∈ shares) :
    ∃ ns, share.ns = .ok ns := by
  obtain ⟨positive, _, full⟩ := AvailabilityHeader.length_of_ofShares built
  obtain ⟨position, entry⟩ := List.mem_iff_getElem?.mp member
  obtain ⟨bound, _⟩ := List.getElem?_eq_some_iff.mp entry
  have row : position / header.squareSize < header.squareSize := by
    rw [Nat.div_lt_iff_lt_mul positive]
    omega
  have column := Nat.mod_lt position positive
  obtain ⟨tree, own⟩ := exists_rowOf built
    (show position / header.squareSize < 2 * header.squareSize by omega)
  have leaf := List.getElem?_eq_getElem
    (show position % header.squareSize < tree.leaves.length by rw [own.length]; omega)
  obtain ⟨ns, _, _, _, stands⟩ := own.leaves _ _ leaf
  obtain ⟨found, listed, _, named⟩ := stands.data row column
  rw [Nat.div_add_mod', entry] at listed
  obtain rfl := Option.some.inj listed
  exact ⟨ns, named⟩

/-- A range of shares that are not all in one namespace is refused with the first share that is in
another namespace than the first. -/
theorem exists_mixed_of_make {start stop : Nat} (nonempty : start < stop)
    (inside : stop ≤ shares.length)
    (mixed : ¬ ∃ ns, ∀ share ∈ (shares.drop start).take (stop - start), share.ns = .ok ns) :
    ∃ (first other : Namespace) (position : Nat) (one two : Bytes),
      StandsAt shares first start one ∧ StandsAt shares other position two ∧ other ≠ first ∧
        start < position ∧ position < stop ∧
        make shares start stop = .error (.mixedNamespaces first other position) := by
  obtain ⟨share, rest, cut⟩ := exists_range_cons nonempty inside
  have member : ∀ other ∈ share :: rest, other ∈ shares := fun other listed =>
    List.mem_of_mem_drop (List.mem_of_mem_take (cut ▸ listed))
  obtain ⟨first, named⟩ := exists_ns_of_ofShares built (member share List.mem_cons_self)
  have valid : ¬ (stop ≤ start ∨ shares.length < stop) := by omega
  cases checked : checkNamespace first (start + 1) rest with
  | ok _ =>
    refine absurd ⟨first, ?_⟩ mixed
    rw [cut]
    exact List.forall_mem_cons.mpr ⟨named, checkNamespace_eq_ok.mp checked⟩
  | error cause =>
    have refused : rangeNamespace shares start stop = .error cause := by
      rw [rangeNamespace, if_neg valid, cut]
      dsimp only
      rw [shareNamespace_eq_ok.mpr named]
      dsimp only
      rw [checked]
    obtain ⟨offset, found, other, entry, space, different, rfl⟩ :=
      exists_mixed_of_checkNamespace (fun later listed =>
        exists_ns_of_ofShares built (member later (List.mem_cons_of_mem _ listed))) checked
    have head : ((shares.drop start).take (stop - start))[0]? = some share := by rw [cut]; rfl
    have later : ((shares.drop start).take (stop - start))[offset + 1]? = some found := by
      rw [cut]
      exact entry
    obtain ⟨_, here⟩ := getElem?_of_range head
    obtain ⟨bound, there⟩ := getElem?_of_range later
    refine ⟨first, other, start + 1 + offset, share.bytes, found.bytes, ⟨share, here, rfl, named⟩,
      ⟨found, ?_, rfl, space⟩, different, by omega, by omega, ?_⟩
    · rw [← there]
      congr 1
      omega
    · rw [make, refused]
      rfl

/-- There is a part of a proof for every row of the data that a range touches. It proves what the
range has in common with the row when these shares are in one namespace and rows are clear. -/
theorem exists_rowPart {start stop row : Nat} (inside : row < header.squareSize)
    (nonempty : max start (row * header.squareSize) <
      min stop (row * header.squareSize + header.squareSize)) :
    ∃ part, rowPart header trees start stop row = .ok part ∧
      (trees.Clear header → ∀ ns,
        (∀ share ∈ rowSlice shares header.squareSize start stop row, share.ns = .ok ns) →
          part.Proves header row ns
            ((rowSlice shares header.squareSize start stop row).map Share.bytes)) := by
  obtain ⟨positive, narrow, full⟩ := AvailabilityHeader.length_of_ofShares built
  have leaves := RowProof.length_leaves_of_ofShares built
  have small : maxSplittable = 9223372036854775808 := rfl
  obtain ⟨root, own, listed, entry, shareNodes⟩ := rowTree_of_ofShares built inside
  obtain ⟨tree, member, looked⟩ := RowTrees.exists_find? listed
  obtain ⟨rooted, width⟩ := rooted_of_ofShares built member
  have headerLeaf : header.leaves[row]? = some root.bytes := by
    rw [RowProof.getElem?_leaves_of_ofShares built (by omega), entry]
    rfl
  obtain ⟨proof, made, _⟩ := Binary.Proof.exists_make (by omega) headerLeaf
  generalize firstEq : max start (row * header.squareSize) - row * header.squareSize = first
  generalize lastEq :
    min stop (row * header.squareSize + header.squareSize) - row * header.squareSize = last
  have ordered : first < last := by omega
  have room : last ≤ header.squareSize := by omega
  have checked : tree.checkRange first last = .ok () := if_neg (by omega)
  have proven : tree.proveRange first last = .ok (RangeProof.make tree.leaves first last) := by
    rw [NamespacedTree.proveRange, checked]
    rfl
  refine ⟨⟨RangeProof.make tree.leaves first last, root, proof⟩, ?_, fun clear ns named => ?_⟩
  · simp only [rowPart, firstEq, lastEq, entry, looked, proven, made]
  · refine ⟨entry, made, ?_⟩
    obtain rfl : tree = own := clear row inside root entry tree own member listed
    have accepted := RangeProof.verifyLeafHashes_make
      (show tree.leaves.length ≤ maxSplittable by omega) ordered
      (show last ≤ tree.leaves.length by omega)
    have window := map_rowSlice_eq shareNodes start stop
    rw [firstEq, lastEq] at window
    have hashes : (rowSlice shares header.squareSize start stop row).map Share.node =
        ((rowSlice shares header.squareSize start stop row).map Share.bytes).map
          (NamespacedHash.leaf ns) := by
      rw [List.map_map]
      exact List.map_congr_left fun share listed => Share.node_of_ns (named share listed)
    rw [← window, hashes] at accepted
    rw [← rooted]
    exact accepted

/-- There is one part of a proof for every row that a range touches, in the order of the rows. -/
theorem exists_rowParts {start stop : Nat} (nonempty : start < stop) (inside : stop ≤ shares.length) :
    ∃ parts, (List.range' (start / header.squareSize)
        ((stop - 1) / header.squareSize + 1 - start / header.squareSize)).mapM
          (rowPart header trees start stop) = .ok parts ∧
      parts.length = (stop - 1) / header.squareSize + 1 - start / header.squareSize ∧
      ∀ (offset : Nat) (part : RowPart), parts[offset]? = some part →
        rowPart header trees start stop (start / header.squareSize + offset) = .ok part := by
  obtain ⟨positive, narrow, full⟩ := AvailabilityHeader.length_of_ofShares built
  have bottom : (stop - 1) / header.squareSize < header.squareSize := by
    rw [Nat.div_lt_iff_lt_mul positive]
    omega
  have each : ∀ row ∈ List.range' (start / header.squareSize)
      ((stop - 1) / header.squareSize + 1 - start / header.squareSize),
        ∃ part, rowPart header trees start stop row = .ok part := by
    intro row member
    rw [List.mem_range'_1] at member
    obtain ⟨part, found, _⟩ := exists_rowPart built (show row < header.squareSize by omega)
      (rowSlice_bounds positive nonempty (by omega) (by omega))
    exact ⟨part, found⟩
  obtain ⟨parts, found⟩ := exists_mapM_eq_ok each
  obtain ⟨count, stepped⟩ := List.forall₂_iff_get.mp (mapM_eq_ok.mp found)
  rw [List.length_range'] at count
  refine ⟨parts, found, count.symm, fun offset part entry => ?_⟩
  obtain ⟨bound, rfl⟩ := List.getElem?_eq_some_iff.mp entry
  have step := stepped offset (by rw [List.length_range']; omega) bound
  rw [List.get_eq_getElem, List.getElem_range', Nat.one_mul] at step
  exact step

/-- A range of shares of one namespace has a proof for exactly these shares. It is accepted when
rows are clear. -/
theorem exists_make {start stop : Nat} {ns : Namespace}
    (power : isPowerOfTwo header.squareSize = true) (nonempty : start < stop)
    (inside : stop ≤ shares.length)
    (named : ∀ share ∈ (shares.drop start).take (stop - start), share.ns = .ok ns) :
    ∃ proof, make shares start stop = .ok proof ∧ proof.ns = ns ∧
      proof.ProvesRun shares header.squareSize start stop ∧
      (trees.Clear header → proof.verify header.hash = .ok ()) := by
  obtain ⟨positive, narrow, full⟩ := AvailabilityHeader.length_of_ofShares built
  have word : UInt64.size = 18446744073709551616 := rfl
  have rows : start / header.squareSize ≤ (stop - 1) / header.squareSize :=
    Nat.div_le_div_right (by omega)
  have bottom : (stop - 1) / header.squareSize < header.squareSize := by
    rw [Nat.div_lt_iff_lt_mul positive]
    omega
  obtain ⟨parts, found, count, parted⟩ := exists_rowParts built nonempty inside
  refine ⟨⟨((shares.drop start).take (stop - start)).map Share.bytes, ns,
    parts.map RowPart.shareProof, ⟨parts.map RowPart.root, parts.map RowPart.proof,
      UInt64.ofNat (start / header.squareSize), UInt64.ofNat ((stop - 1) / header.squareSize)⟩⟩,
    ?made, rfl, ?run, ?accepted⟩
  case made =>
    have range := rangeNamespace_eq_ok.mpr ⟨nonempty, inside, named⟩
    rw [make, range]
    refine bind_eq_ok.mpr ⟨ns, rfl, bind_eq_ok.mpr ⟨(header, trees), ?_, ?_⟩⟩
    · rw [built]
      rfl
    · exact bind_eq_ok.mpr ⟨parts, found, rfl⟩
  case run =>
    refine ⟨nonempty, full ▸ inside, rfl, named, ?_, ?_⟩
    · exact (UInt64.toNat_ofNat_of_lt' (by omega)).symm
    · exact (UInt64.toNat_ofNat_of_lt' (by omega)).symm
  case accepted =>
    intro clear
    have whole : (((List.range' (start / header.squareSize)
        ((stop - 1) / header.squareSize + 1 - start / header.squareSize)).map
          (rowSlice shares header.squareSize start stop)).map (List.map Share.bytes)).flatten =
            ((shares.drop start).take (stop - start)).map Share.bytes := by
      rw [← List.map_flatten, flatten_rowSlices positive nonempty]
    rw [← whole]
    refine verify_of_proves built power rows (by omega) count ?_ ?_
    · rw [List.length_map, List.length_map, List.length_range', count]
    · intro offset part chunk entry held
      have step := parted offset part entry
      obtain ⟨inParts, _⟩ := List.getElem?_eq_some_iff.mp entry
      have bound : offset < (stop - 1) / header.squareSize + 1 - start / header.squareSize :=
        count ▸ inParts
      rw [List.getElem?_map, List.getElem?_map, List.getElem?_range' bound, Nat.one_mul,
        Option.map_some, Option.map_some] at held
      obtain rfl := Option.some.inj held
      obtain ⟨other, again, proves⟩ := exists_rowPart built
        (show start / header.squareSize + offset < header.squareSize by omega)
        (rowSlice_bounds positive nonempty (by omega) (by omega))
      obtain rfl : other = part := Except.ok.inj (again.symm.trans step)
      exact proves clear ns fun share listed => named share
        (mem_of_mem_rowSlice positive nonempty (by omega) (by omega) listed)

end Square

/-- A range of shares of one namespace has a proof, for exactly these shares, that is accepted
against the hash of the header unless rows are ambiguous and messages of their trees collide. A
range that is empty or goes past the last share is refused, and so is a range with shares of several
namespaces, with a share that is not in the namespace of the first. -/
theorem make_complete {shares : List Share} {header : AvailabilityHeader} {trees : RowTrees}
    {squareSize : Nat} (built : AvailabilityHeader.ofShares shares = .ok (header, trees))
    (power : isPowerOfTwo squareSize = true) (full : shares.length = squareSize * squareSize)
    (start stop : Nat) :
    (start < stop → stop ≤ squareSize * squareSize →
      (∃ ns, ∀ share ∈ (shares.drop start).take (stop - start), share.ns = .ok ns) →
        ∃ proof, make shares start stop = .ok proof ∧
          proof.ProvesRun shares squareSize start stop ∧
          (proof.verify header.hash = .ok () ∨
            trees.Ambiguous ∧ Sha256.Collision trees.messages)) ∧
    (stop ≤ start ∨ squareSize * squareSize < stop →
      make shares start stop = .error (.invalidRange start stop (squareSize * squareSize))) ∧
    (start < stop → stop ≤ squareSize * squareSize →
      (¬ ∃ ns, ∀ share ∈ (shares.drop start).take (stop - start), share.ns = .ok ns) →
        ∃ (first other : Namespace) (position : Nat) (one two : Bytes),
          StandsAt shares first start one ∧ StandsAt shares other position two ∧ other ≠ first ∧
            start < position ∧ position < stop ∧
            make shares start stop = .error (.mixedNamespaces first other position)) := by
  obtain rfl := AvailabilityHeader.squareSize_of_ofShares built full
  rw [← full]
  refine ⟨fun nonempty inside ⟨ns, named⟩ => ?_, make_of_invalid, exists_mixed_of_make built⟩
  obtain ⟨proof, made, _, run, accepted⟩ := exists_make built power nonempty inside named
  refine ⟨proof, made, run, ?_⟩
  by_cases ambiguous : trees.Ambiguous
  · exact .inr ⟨ambiguous, collision_of_ambiguous_rows built ambiguous⟩
  · exact .inl (accepted (RowTrees.clear_of_not_ambiguous header ambiguous))

/-- In a square of width two with three shares of a namespace before one of padding, the second and
third share are proven across the two rows, the third and fourth are not in one namespace, and there
is no fifth. -/
theorem make_across_two_rows :
    let shares := Sparse.sharesOf Namespace.lowestUser 0 (List.replicate 1000 7) ++
      Share.tailPadding 1
    ∃ header trees, AvailabilityHeader.ofShares shares = .ok (header, trees) ∧
      (∃ proof, make shares 1 3 = .ok proof ∧ proof.ProvesRun shares 2 1 3 ∧
        (proof.verify header.hash = .ok () ∨
          trees.Ambiguous ∧ Sha256.Collision trees.messages)) ∧
      (∃ first other position, make shares 2 4 = .error (.mixedNamespaces first other position)) ∧
      make shares 3 5 = .error (.invalidRange 3 5 4) := by
  intro shares
  have stands : ∀ share ∈ Sparse.sharesOf Namespace.lowestUser 0 (List.replicate 1000 7),
      share.ns = .ok Namespace.lowestUser := fun _ => Sparse.ns_of_mem_sharesOf
  have tail : ∀ share ∈ Share.tailPadding 1, share.ns = .ok Namespace.tailPadding :=
    fun _ => Square.ns_of_mem_tailPadding
  have ordered : Ordered shares := by
    apply (Ordered.of_ns stands).append (Ordered.of_ns tail)
    intro left memLeft right memRight
    rw [Share.space_of_ns (stands left memLeft), Share.space_of_ns (tail right memRight)]
    decide
  have length : (Sparse.sharesOf Namespace.lowestUser 0 (List.replicate 1000 7)).length = 3 := by
    have nonempty : List.replicate 1000 (7 : UInt8) ≠ [] := List.cons_ne_nil _ _
    rw [Sparse.length_sharesOf nonempty, List.length_replicate]
    rfl
  obtain ⟨one, two, three, cells⟩ := List.length_eq_three.mp length
  have square : shares = [one, two, three] ++ Share.tailPadding 1 :=
    congrArg (· ++ Share.tailPadding 1) cells
  have full : shares.length = 2 * 2 := by rw [square]; rfl
  obtain ⟨header, trees, built⟩ := ordered.exists_ofShares (by decide) (by decide) full
  have sparse : ∀ share ∈ [one, two, three], share.ns = .ok Namespace.lowestUser := cells ▸ stands
  have inner : ∃ ns, ∀ share ∈ (shares.drop 1).take (3 - 1), share.ns = .ok ns := by
    refine ⟨Namespace.lowestUser, fun share member => sparse share ?_⟩
    rw [square] at member
    exact List.mem_cons_of_mem _ member
  have mixed : ¬ ∃ ns, ∀ share ∈ (shares.drop 2).take (4 - 2), share.ns = .ok ns := by
    rintro ⟨ns, named⟩
    rw [square] at named
    have third := (named three List.mem_cons_self).symm.trans (sparse three (by simp))
    have fourth := (named _ (List.mem_cons_of_mem _ List.mem_cons_self)).symm.trans
      (tail _ List.mem_cons_self)
    have same : Namespace.lowestUser = Namespace.tailPadding :=
      (Except.ok.inj third).symm.trans (Except.ok.inj fourth)
    exact absurd same (by decide)
  have proven := (make_complete built (by decide) full 1 3).1 (by decide) (by decide) inner
  have several := (make_complete built (by decide) full 2 4).2.2 (by decide) (by decide) mixed
  have outside := (make_complete built (by decide) full 3 5).2.1 (.inr (by decide))
  obtain ⟨first, other, position, _, _, _, _, _, _, _, refused⟩ := several
  exact ⟨header, trees, built, proven, ⟨first, other, position, refused⟩, outside⟩

end ShareProof

end DataSquare
