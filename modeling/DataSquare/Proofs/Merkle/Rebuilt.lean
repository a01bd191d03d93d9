import DataSquare.Proofs.Merkle.Messages
import DataSquare.Proofs.Merkle.Sides

/-!
# Roots rebuilt from a run of leaves

A range proof rebuilds a root from the leaves of a run and the roots outside it. However it is
labelled, a path leads from each leaf of the run to the root, on the sides that belong to the
position of the leaf among as many leaves as are labelled. So a leaf of the run is one of the tree
of that root: the one at its position when that is in the left half of the tree, and otherwise one
in the right half. Conversely the roots outside a run rebuild the root of its tree.
-/
namespace DataSquare.Merkle

open Sha256 (CollisionFree)

section Rebuild

variable {start stop low high : Nat} {leaves nodes rest : List NamespacedHash}
  {root : NamespacedHash}

/-- The root of a part outside the run is the next of the given ones. -/
theorem rebuildRoot_outside (outside : high ≤ start ∨ stop ≤ low) :
    rebuildRoot start stop leaves low high nodes = .ok (root, rest) ↔ nodes = root :: rest := by
  rw [rebuildRoot.eq_def, if_pos outside]
  cases nodes with
  | nil => simp
  | cons node others => simp

/-- The root of a part inside the run is that of its leaves. -/
theorem rebuildRoot_inside (meets : ¬ (high ≤ start ∨ stop ≤ low))
    (inside : start ≤ low ∧ high ≤ stop) :
    rebuildRoot start stop leaves low high nodes =
      .ok (namespacedRoot ((leaves.drop (low - start)).take (high - low)), nodes) := by
  rw [rebuildRoot.eq_def, if_neg meets, if_pos inside]

/-- The root of a part across an end of the run is the parent of those of its two parts. -/
theorem rebuildRoot_across (meets : ¬ (high ≤ start ∨ stop ≤ low))
    (across : ¬ (start ≤ low ∧ high ≤ stop)) :
    rebuildRoot start stop leaves low high nodes = .ok (root, rest) ↔
      high - low ≤ maxSplittable ∧ ∃ left right middle,
        rebuildRoot start stop leaves low (low + splitPoint (high - low)) nodes =
            .ok (left, middle) ∧
          rebuildRoot start stop leaves (low + splitPoint (high - low)) high middle =
            .ok (right, rest) ∧ root = left.node right := by
  rw [rebuildRoot.eq_def, if_neg meets, if_neg across]
  by_cases large : maxSplittable < high - low
  · rw [if_pos large]
    simp only [reduceCtorEq, false_iff]
    omega
  · rw [if_neg large]
    simp only [show high - low ≤ maxSplittable by omega, true_and]
    cases rebuildRoot start stop leaves low (low + splitPoint (high - low)) nodes with
    | error cause => simp
    | ok front =>
      obtain ⟨left, middle⟩ := front
      simp only [Except.ok.injEq, Prod.mk.injEq]
      cases second : rebuildRoot start stop leaves (low + splitPoint (high - low)) high middle with
      | error cause =>
        simp only [reduceCtorEq, false_iff]
        rintro ⟨_, right, _, ⟨rfl, rfl⟩, other, _⟩
        rw [second] at other
        contradiction
      | ok back =>
        obtain ⟨right, others⟩ := back
        constructor
        · intro same
          obtain ⟨rfl, rfl⟩ := Prod.mk.inj (Except.ok.inj same)
          exact ⟨left, right, middle, ⟨rfl, rfl⟩, second, rfl⟩
        · rintro ⟨_, own, _, ⟨rfl, rfl⟩, other, rfl⟩
          rw [second] at other
          obtain ⟨rfl, rfl⟩ := Prod.mk.inj (Except.ok.inj other)
          rfl

/-- A part across an end of the run has several leaves. -/
theorem one_lt_of_across (meets : ¬ (high ≤ start ∨ stop ≤ low))
    (across : ¬ (start ≤ low ∧ high ≤ stop)) : 1 < high - low := by
  omega

/-- The pairs whose parents are computed while a root is rebuilt. -/
def rebuildPairs (start stop : Nat) (leaves : List NamespacedHash) (low high : Nat)
    (nodes : List NamespacedHash) : List (NamespacedHash × NamespacedHash) :=
  if _meets : high ≤ start ∨ stop ≤ low then []
  else if _across : start ≤ low ∧ high ≤ stop then
    siblingPairs NamespacedHash.empty NamespacedHash.node
      ((leaves.drop (low - start)).take (high - low))
  else if maxSplittable < high - low then []
  else
    let count := splitPoint (high - low)
    rebuildPairs start stop leaves low (low + count) nodes ++
      match rebuildRoot start stop leaves low (low + count) nodes with
      | .error _ => []
      | .ok (left, middle) =>
        rebuildPairs start stop leaves (low + count) high middle ++
          match rebuildRoot start stop leaves (low + count) high middle with
          | .error _ => []
          | .ok (right, _) => [(left, right)]
termination_by high - low
decreasing_by
  · have : splitPoint (high - low) < high - low := splitPoint_lt (by omega)
    omega
  · have : 0 < splitPoint (high - low) := splitPoint_pos (by omega)
    omega

/-- The pairs of a part across an end of the run are those of its two parts and the one below its
root. -/
theorem rebuildPairs_across (meets : ¬ (high ≤ start ∨ stop ≤ low))
    (across : ¬ (start ≤ low ∧ high ≤ stop)) (small : high - low ≤ maxSplittable)
    {left right : NamespacedHash} {middle : List NamespacedHash}
    (front : rebuildRoot start stop leaves low (low + splitPoint (high - low)) nodes =
      .ok (left, middle))
    (back : rebuildRoot start stop leaves (low + splitPoint (high - low)) high middle =
      .ok (right, rest)) :
    rebuildPairs start stop leaves low high nodes =
      rebuildPairs start stop leaves low (low + splitPoint (high - low)) nodes ++
        (rebuildPairs start stop leaves (low + splitPoint (high - low)) high middle ++
          [(left, right)]) := by
  rw [rebuildPairs, dif_neg meets, dif_neg across,
    if_neg (show ¬ maxSplittable < high - low by omega)]
  simp only [front, back]

section Path

variable {position : Nat} {leaf : NamespacedHash} (full : leaves.length = stop - start)
  (rebuilt : rebuildRoot start stop leaves low high nodes = .ok (root, rest))
  (fromStart : start ≤ position) (found : leaves[position - start]? = some leaf)
  (above : low ≤ position) (below : position < high)
include full rebuilt fromStart found above below

/-- In a part inside the run the siblings of a leaf lead to the root. -/
theorem exists_path_inside (inside : start ≤ low ∧ high ≤ stop) :
    ∃ path, follow NamespacedHash.node leaf path = root ∧
      path.map Sibling.side = sides (position - low) (high - low) ∧
      pathPairs NamespacedHash.node leaf path ⊆ rebuildPairs start stop leaves low high nodes := by
  have meets : ¬ (high ≤ start ∨ stop ≤ low) := by omega
  rw [rebuildRoot_inside meets inside, Except.ok.injEq] at rebuilt
  obtain ⟨rfl, _⟩ := Prod.mk.inj rebuilt
  have entry : ((leaves.drop (low - start)).take (high - low))[position - low]? = some leaf := by
    rw [List.getElem?_take_of_lt (by omega), List.getElem?_drop,
      show low - start + (position - low) = position - start by omega, found]
  have length : ((leaves.drop (low - start)).take (high - low)).length = high - low := by
    rw [List.length_take, List.length_drop]
    omega
  obtain ⟨root, pairs⟩ := follow_siblings NamespacedHash.empty NamespacedHash.node entry
  refine ⟨_, root, by rw [map_side_siblings, length], ?_⟩
  rw [rebuildPairs, dif_neg meets, dif_pos inside]
  exact pairs

/-- A path leads from each leaf of the run to the root that is rebuilt, on the sides of its
position, and all parents on the way are computed. -/
theorem exists_path_of_rebuildRoot : ∃ path, follow NamespacedHash.node leaf path = root ∧
    path.map Sibling.side = sides (position - low) (high - low) ∧
    pathPairs NamespacedHash.node leaf path ⊆ rebuildPairs start stop leaves low high nodes := by
  have toStop : position < stop := by
    obtain ⟨bound, _⟩ := List.getElem?_eq_some_iff.mp found
    omega
  induction size : high - low using Nat.strong_induction_on
    generalizing low high nodes rest root with
  | _ size ih =>
    subst size
    have meets : ¬ (high ≤ start ∨ stop ≤ low) := by omega
    by_cases within : start ≤ low ∧ high ≤ stop
    · exact exists_path_inside full rebuilt fromStart found above below within
    · obtain ⟨small, left, right, middle, front, back, rfl⟩ :=
        (rebuildRoot_across meets within).mp rebuilt
      have several := one_lt_of_across meets within
      have lower := splitPoint_pos several
      have upper := splitPoint_lt several
      rw [rebuildPairs_across meets within small front back]
      by_cases inside : position - low < splitPoint (high - low)
      · obtain ⟨path, leads, stand, pairs⟩ := ih _ (by omega) front above (by omega) rfl
        rw [Nat.add_sub_cancel_left] at stand
        refine ⟨path ++ [.right right], ?_, ?_, ?_⟩
        · rw [follow_concat, leads]
          rfl
        · rw [List.map_append, stand, sides_of_lt several inside]
          rfl
        · rw [pathPairs_concat, leads]
          exact append_subset_append pairs (List.subset_append_right _ _)
      · have outside : splitPoint (high - low) ≤ position - low := by omega
        obtain ⟨path, leads, stand, pairs⟩ := ih _ (by omega) back (by omega) below rfl
        refine ⟨path ++ [.left left], ?_, ?_, ?_⟩
        · rw [follow_concat, leads]
          rfl
        · rw [List.map_append, stand, sides_of_le several outside, Nat.sub_add_eq, Nat.sub_add_eq]
          rfl
        · rw [pathPairs_concat, leads]
          exact List.subset_append_of_subset_right _
            (append_subset_append pairs (List.Subset.refl _))

end Path

/-- The only root outside the run for a part that is itself outside is that of the part. -/
theorem outsideRoots_outside (outside : low + leaves.length ≤ start ∨ stop ≤ low) :
    outsideRoots leaves low start stop = [namespacedRoot leaves] := by
  rw [outsideRoots, if_pos outside]

/-- No roots are outside the run for a part inside of it. -/
theorem outsideRoots_inside (meets : ¬ (low + leaves.length ≤ start ∨ stop ≤ low))
    (inside : start ≤ low ∧ low + leaves.length ≤ stop) :
    outsideRoots leaves low start stop = [] := by
  rw [outsideRoots, if_neg meets, dif_pos (.inr inside)]

/-- The roots outside the run for a part across an end are those for its two parts. -/
theorem outsideRoots_across (meets : ¬ (low + leaves.length ≤ start ∨ stop ≤ low))
    (across : ¬ (start ≤ low ∧ low + leaves.length ≤ stop)) :
    outsideRoots leaves low start stop =
      outsideRoots (leaves.take (splitPoint leaves.length)) low start stop ++
        outsideRoots (leaves.drop (splitPoint leaves.length)) (low + splitPoint leaves.length)
          start stop := by
  rw [outsideRoots, if_neg meets,
    dif_neg (show ¬ (leaves.length ≤ 1 ∨ start ≤ low ∧ low + leaves.length ≤ stop) by omega)]

/-- The leaves of a part, which stand from a position on, are those of a run as far as they are
inside of it. -/
def Agrees (run : List NamespacedHash) (start stop : Nat) (part : List NamespacedHash)
    (low : Nat) : Prop :=
  ∀ (position : Nat) (leaf : NamespacedHash), part[position]? = some leaf →
    start ≤ low + position → low + position < stop → run[low + position - start]? = some leaf

/-- The leaves of a run agree with a tree exactly when they are its leaves from the start of the
run to its end. -/
theorem agrees_iff_slice {run part : List NamespacedHash}
    (full : run.length = stop - start) (inside : stop ≤ part.length) :
    Agrees run start stop part 0 ↔ run = (part.drop start).take (stop - start) := by
  constructor
  · intro agree
    apply List.ext_getElem?
    intro position
    by_cases bound : position < stop - start
    · have entry := List.getElem?_eq_getElem (show start + position < part.length by omega)
      have own := agree (start + position) _ entry (by omega) (by omega)
      rw [show 0 + (start + position) - start = position by omega] at own
      rw [own, List.getElem?_take_of_lt bound, List.getElem?_drop, entry]
    · have outside : ((part.drop start).take (stop - start)).length ≤ position := by
        simp only [List.length_take, List.length_drop]
        omega
      rw [List.getElem?_eq_none (by omega), List.getElem?_eq_none outside]
  · rintro rfl position leaf found fromStart toStop
    rw [List.getElem?_take_of_lt (by omega), List.getElem?_drop,
      show start + (0 + position - start) = position by omega]
    exact found

section Agrees

variable {run part : List NamespacedHash} (agree : Agrees run start stop part low)
include agree

/-- The front of a part that agrees with a run does so as well. -/
theorem Agrees.front (count : Nat) : Agrees run start stop (part.take count) low := by
  intro position leaf found
  exact agree position leaf (getElem?_of_take found).2

/-- The back of a part that agrees with a run does so as well. -/
theorem Agrees.back (count : Nat) : Agrees run start stop (part.drop count) (low + count) := by
  intro position leaf found
  rw [List.getElem?_drop] at found
  have entry := agree _ leaf found
  rwa [← Nat.add_assoc] at entry

/-- A part inside a run is a part of the run. -/
theorem Agrees.eq_part (inside : start ≤ low ∧ low + part.length ≤ stop) :
    (run.drop (low - start)).take (low + part.length - low) = part := by
  apply List.ext_getElem?
  intro position
  rcases Nat.lt_or_ge position part.length with bound | outside
  · have entry := List.getElem?_eq_getElem bound
    rw [List.getElem?_take_of_lt (by omega), List.getElem?_drop, entry,
      ← agree position _ entry (by omega) (by omega),
      show low - start + position = low + position - start by omega]
  · rw [List.getElem?_take_eq_none (by omega), List.getElem?_eq_none outside]

/-- The leaves of a run and the roots outside of it rebuild the root of the tree. -/
theorem rebuildRoot_outsideRoots (small : part.length ≤ maxSplittable)
    (rest : List NamespacedHash) :
    rebuildRoot start stop run low (low + part.length)
      (outsideRoots part low start stop ++ rest) = .ok (namespacedRoot part, rest) := by
  induction part using splitInduction generalizing low rest with
  | few part few =>
    by_cases outside : low + part.length ≤ start ∨ stop ≤ low
    · rw [outsideRoots_outside outside]
      exact (rebuildRoot_outside outside).mpr rfl
    · have inside : start ≤ low ∧ low + part.length ≤ stop := by omega
      rw [outsideRoots_inside outside inside, rebuildRoot_inside outside inside,
        agree.eq_part inside]
      rfl
  | several part several front back =>
    have lower := splitPoint_pos several
    have upper := splitPoint_lt several
    by_cases outside : low + part.length ≤ start ∨ stop ≤ low
    · rw [outsideRoots_outside outside]
      exact (rebuildRoot_outside outside).mpr rfl
    · by_cases inside : start ≤ low ∧ low + part.length ≤ stop
      · rw [outsideRoots_inside outside inside, rebuildRoot_inside outside inside,
          agree.eq_part inside]
        rfl
      · have takes := length_take_splitPoint several
        have drops := add_length_drop_splitPoint several low
        have width : low + part.length - low = part.length := by omega
        have right := back (agree.back _) (by omega) rest
        rw [drops] at right
        have left := front (agree.front _) (by omega) (outsideRoots
          (part.drop (splitPoint part.length)) (low + splitPoint part.length) start stop ++ rest)
        rw [takes] at left
        rw [outsideRoots_across outside inside, List.append_assoc,
          rebuildRoot_across outside inside, width]
        exact ⟨by omega, _, _, _, left, right, combine_of_one_lt several⟩

end Agrees

end Rebuild

/-- A path from the hash of a leaf to the root of a tree is that of one of its leaves, unless
messages collide. -/
theorem exists_siblings_of_follow_eq_namespacedRoot {tree : List NamespacedHash}
    {leaf : NamespacedHash} {path : List (Sibling NamespacedHash)} {hashed : List Bytes}
    (nonempty : tree ≠ []) (free : CollisionFree hashed)
    (stands : ∀ hash ∈ leaf :: tree, ∃ ns data, hash = NamespacedHash.leaf ns data ∧
      NamespacedHash.leafMessage ns data ∈ hashed)
    (inner : namespacedMessages tree ++ ((pathPairs NamespacedHash.node leaf path).map fun pair =>
      NamespacedHash.nodeMessage pair.1 pair.2) ⊆ hashed)
    (leads : follow NamespacedHash.node leaf path = namespacedRoot tree) :
    ∃ index, tree[index]? = some leaf ∧
      path = siblings NamespacedHash.empty NamespacedHash.node tree index := by
  rw [namespacedMessages, ← List.map_append] at inner
  have distinct := parentsDistinct_of_collisionFree (free.mono inner)
  have apart := parentsApart_of_collisionFree
    (free.mono (List.append_subset.mpr ⟨List.Subset.refl _, inner⟩)) stands
  exact exists_siblings_of_follow_eq nonempty distinct apart leads

namespace RangeProof

/-- A range proof is accepted exactly when it is for as many leaves of the labelled tree and these
and its roots rebuild the root of the tree. -/
theorem verifyLeafHashes_eq_ok {proof : RangeProof} {root : NamespacedHash}
    {leaves : List NamespacedHash} : proof.verifyLeafHashes root leaves = .ok () ↔
      proof.start.toNat < proof.stop.toNat ∧ proof.stop.toNat ≤ proof.total.toNat ∧
        leaves.length = proof.stop.toNat - proof.start.toNat ∧
        rebuildRoot proof.start.toNat proof.stop.toNat leaves 0 proof.total.toNat proof.nodes =
          .ok (root, []) := by
  unfold verifyLeafHashes
  dsimp only
  by_cases range : proof.stop.toNat ≤ proof.start.toNat ∨ proof.total.toNat < proof.stop.toNat
  · rw [if_pos range]
    simp only [reduceCtorEq, false_iff]
    omega
  · rw [if_neg range]
    by_cases count : leaves.length = proof.stop.toNat - proof.start.toNat
    · rw [if_neg (not_not.mpr count)]
      have inside : proof.start.toNat < proof.stop.toNat ∧
          proof.stop.toNat ≤ proof.total.toNat := by omega
      simp only [inside, count, true_and]
      split
      · rename_i rebuilt
        simp [rebuilt]
      · rename_i rebuilt
        simp [rebuilt]
      · rename_i computed rebuilt
        simp [rebuilt]
    · rw [if_pos count]
      simp [count]

/-- The pairs whose parents are computed while a range proof is checked. -/
def pairs (proof : RangeProof) (leaves : List NamespacedHash) :
    List (NamespacedHash × NamespacedHash) :=
  rebuildPairs proof.start.toNat proof.stop.toNat leaves 0 proof.total.toNat proof.nodes

/-- What is hashed while data are checked against a range proof: their leaves and the parents. -/
def messages (proof : RangeProof) (ns : Namespace) (data : List Bytes) : List Bytes :=
  data.map (NamespacedHash.leafMessage ns) ++
    (proof.pairs (data.map (NamespacedHash.leaf ns))).map fun pair =>
      NamespacedHash.nodeMessage pair.1 pair.2

/-- The proof of a run of leaves is accepted with these leaves. -/
theorem verifyLeafHashes_make {tree : List NamespacedHash} {start stop : Nat}
    (small : tree.length ≤ maxSplittable) (nonempty : start < stop) (inside : stop ≤ tree.length) :
    (make tree start stop).verifyLeafHashes (namespacedRoot tree)
      ((tree.drop start).take (stop - start)) = .ok () := by
  have word : maxSplittable < UInt64.size := by decide
  have first : (UInt64.ofNat start).toNat = start := UInt64.toNat_ofNat_of_lt' (by omega)
  have last : (UInt64.ofNat stop).toNat = stop := UInt64.toNat_ofNat_of_lt' (by omega)
  have total : (UInt64.ofNat tree.length).toNat = tree.length :=
    UInt64.toNat_ofNat_of_lt' (by omega)
  have full : ((tree.drop start).take (stop - start)).length = stop - start := by
    rw [List.length_take, List.length_drop]
    omega
  have agree := (agrees_iff_slice full inside).mpr rfl
  have rebuilt := rebuildRoot_outsideRoots agree small []
  rw [Nat.zero_add, List.append_nil] at rebuilt
  apply verifyLeafHashes_eq_ok.mpr
  simp only [make, first, last, total]
  exact ⟨nonempty, inside, full, rebuilt⟩

/-- Data that are accepted are cells of the tree. A cell whose position is in the left half of the
tree stands there, and every other one stands in the right half. -/
theorem exists_leaf_of_verifyInclusion {proof : RangeProof} {tree : List NamespacedHash}
    {hashed : List Bytes} {ns : Namespace} {data : List Bytes} {exponent : Nat}
    (size : tree.length = 2 ^ (exponent + 1))
    (stands : ∀ hash ∈ tree, ∃ ns data, hash = NamespacedHash.leaf ns data ∧
      NamespacedHash.leafMessage ns data ∈ hashed)
    (free : CollisionFree (hashed ++ namespacedMessages tree ++ proof.messages ns data))
    (verified : proof.verifyInclusion (namespacedRoot tree) ns data = .ok ())
    {offset : Nat} {cell : Bytes} (found : data[offset]? = some cell) :
    ∃ index, tree[index]? = some (NamespacedHash.leaf ns cell) ∧
      (proof.start.toNat + offset < 2 ^ exponent → index = proof.start.toNat + offset) ∧
      (2 ^ exponent ≤ proof.start.toNat + offset → 2 ^ exponent ≤ index) := by
  obtain ⟨range, bound, full, rebuilt⟩ := verifyLeafHashes_eq_ok.mp verified
  obtain ⟨inside, _⟩ := List.getElem?_eq_some_iff.mp found
  rw [List.length_map] at full
  have entry : (data.map (NamespacedHash.leaf ns))[proof.start.toNat + offset -
      proof.start.toNat]? = some (NamespacedHash.leaf ns cell) := by
    rw [Nat.add_sub_cancel_left, List.getElem?_map, found]
    rfl
  obtain ⟨path, leads, sides, pairs⟩ := exists_path_of_rebuildRoot
    (by rw [List.length_map]; exact full) rebuilt (Nat.le_add_right _ _) entry (Nat.zero_le _)
    (show proof.start.toNat + offset < proof.total.toNat by omega)
  have nonempty : tree ≠ [] := List.length_pos_iff.mp (by rw [size]; exact Nat.two_pow_pos _)
  have stand : ∀ hash ∈ NamespacedHash.leaf ns cell :: tree, ∃ own bytes,
      hash = NamespacedHash.leaf own bytes ∧ NamespacedHash.leafMessage own bytes ∈
        hashed ++ namespacedMessages tree ++ proof.messages ns data := by
    intro hash member
    rcases List.mem_cons.mp member with rfl | listed
    · have own := List.mem_map_of_mem (f := NamespacedHash.leafMessage ns)
        (List.mem_of_getElem? found)
      exact ⟨ns, cell, rfl, List.mem_append_right _ (List.mem_append_left _ own)⟩
    · obtain ⟨other, bytes, same, message⟩ := stands hash listed
      exact ⟨other, bytes, same, List.mem_append_left _ (List.mem_append_left _ message)⟩
  have inner := append_subset_append (List.subset_append_right hashed (namespacedMessages tree))
    (List.subset_append_of_subset_right (data.map (NamespacedHash.leafMessage ns))
      (List.map_subset (fun pair : NamespacedHash × NamespacedHash =>
        NamespacedHash.nodeMessage pair.1 pair.2) pairs))
  obtain ⟨index, place, rfl⟩ :=
    exists_siblings_of_follow_eq_namespacedRoot nonempty free stand inner leads
  obtain ⟨bound, _⟩ := List.getElem?_eq_some_iff.mp place
  rw [map_side_siblings, size, Nat.sub_zero, Nat.sub_zero] at sides
  exact ⟨index, place, half_of_sides_eq (size ▸ bound) (by omega) sides.symm⟩

end RangeProof

end DataSquare.Merkle
