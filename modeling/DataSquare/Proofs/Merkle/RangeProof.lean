import DataSquare.Proofs.Merkle.Rebuilt

/-!
# Proofs of runs of leaves

What rebuilds the root of a tree, read from the left, is what the prover gives: inside the run the
leaves of the tree, outside of it the roots of its largest subtrees. The prover and the check go
down the same tree, so this is shown along its splits, and the parents below the root determine
both halves unless messages collide. A proof that names the true number of leaves is then accepted
exactly for a run of the tree, with the leaves of that run and the nodes that are made for it.
-/
namespace DataSquare.Merkle

section Agrees

variable {start stop low : Nat} {run part : List NamespacedHash}

/-- A part agrees with a run when both of its ends do. -/
theorem Agrees.append {count : Nat} (front : Agrees run start stop (part.take count) low)
    (back : Agrees run start stop (part.drop count) (low + count)) :
    Agrees run start stop part low := by
  intro position leaf found fromStart toStop
  by_cases early : position < count
  · apply front position leaf _ fromStart toStop
    rw [List.getElem?_take_of_lt early]
    exact found
  · have place : low + count + (position - count) = low + position := by omega
    have entry := back (position - count) leaf
    rw [List.getElem?_drop, show count + (position - count) = position by omega, place] at entry
    exact entry found fromStart toStop

/-- A part outside the run agrees with it. -/
theorem agrees_of_outside (outside : low + part.length ≤ start ∨ stop ≤ low) :
    Agrees run start stop part low := by
  intro position leaf found fromStart toStop
  have bound : position < part.length := (List.getElem?_eq_some_iff.mp found).1
  omega

/-- A part that is a part of the run agrees with it. -/
theorem agrees_of_eq_part
    (same : (run.drop (low - start)).take (low + part.length - low) = part)
    (inside : start ≤ low) : Agrees run start stop part low := by
  intro position leaf found _ _
  rw [← same] at found
  have entry := (getElem?_of_take found).2
  rw [List.getElem?_drop] at entry
  rw [show low + position - start = low - start + position by omega]
  exact entry

end Agrees

section Rebuilt

variable {start stop low : Nat} {run part nodes rest : List NamespacedHash}
  (distinct : ParentsDistinct NamespacedHash.node
    (siblingPairs NamespacedHash.empty NamespacedHash.node part ++
      rebuildPairs start stop run low (low + part.length) nodes))
  (rebuilt : rebuildRoot start stop run low (low + part.length) nodes =
    .ok (namespacedRoot part, rest))
include distinct rebuilt

/-- The leaves that rebuild the root of a part inside the run are those of the part. -/
theorem agrees_of_rebuildRoot_inside (full : run.length = stop - start)
    (meets : ¬ (low + part.length ≤ start ∨ stop ≤ low))
    (inside : start ≤ low ∧ low + part.length ≤ stop) :
    Agrees run start stop part low ∧ nodes = outsideRoots part low start stop ++ rest := by
  rw [rebuildRoot_inside meets inside, Except.ok.injEq, Prod.mk.injEq] at rebuilt
  rw [rebuildPairs, dif_neg meets, dif_pos inside] at distinct
  have length : part.length =
      ((run.drop (low - start)).take (low + part.length - low)).length := by
    simp only [List.length_take, List.length_drop]
    omega
  have same := combine_injective length distinct rebuilt.1.symm
  constructor
  · exact agrees_of_eq_part same.symm inside.1
  · rw [outsideRoots_inside meets inside]
    exact rebuilt.2

/-- What rebuilds the root of a part across an end of the run rebuilds those of its two halves. -/
theorem exists_halves_of_rebuildRoot (several : 1 < part.length)
    (meets : ¬ (low + part.length ≤ start ∨ stop ≤ low))
    (across : ¬ (start ≤ low ∧ low + part.length ≤ stop)) :
    ∃ middle,
      rebuildRoot start stop run low (low + (part.take (splitPoint part.length)).length) nodes =
        .ok (namespacedRoot (part.take (splitPoint part.length)), middle) ∧
      rebuildRoot start stop run (low + splitPoint part.length)
          (low + splitPoint part.length + (part.drop (splitPoint part.length)).length) middle =
        .ok (namespacedRoot (part.drop (splitPoint part.length)), rest) ∧
      rebuildPairs start stop run low (low + (part.take (splitPoint part.length)).length) nodes ⊆
        rebuildPairs start stop run low (low + part.length) nodes ∧
      rebuildPairs start stop run (low + splitPoint part.length)
          (low + splitPoint part.length + (part.drop (splitPoint part.length)).length) middle ⊆
        rebuildPairs start stop run low (low + part.length) nodes := by
  have width : low + part.length - low = part.length := by omega
  obtain ⟨small, left, right, middle, front, back, parent⟩ :=
    (rebuildRoot_across meets across).mp rebuilt
  have pairs := rebuildPairs_across meets across small front back
  rw [width] at front back pairs
  rw [pairs] at distinct
  -- Both sides have the same parent at the root, so they have the same two halves.
  have halves := distinct _ (List.mem_append_left _ (pair_mem_siblingPairs _ _ several))
    (left, right) (by simp) ((combine_of_one_lt several).symm.trans parent)
  obtain ⟨rfl, rfl⟩ := Prod.mk.inj halves
  rw [length_take_splitPoint several, add_length_drop_splitPoint several, pairs]
  refine ⟨middle, front, back, List.subset_append_left _ _, ?_⟩
  apply List.subset_append_of_subset_right
  exact List.subset_append_left _ _

/-- What rebuilds the root of a part is what the prover gives for it. -/
theorem agrees_of_rebuildRoot (full : run.length = stop - start) :
    Agrees run start stop part low ∧ nodes = outsideRoots part low start stop ++ rest := by
  induction part using splitInduction generalizing low nodes rest with
  | few part few =>
    by_cases outside : low + part.length ≤ start ∨ stop ≤ low
    · rw [outsideRoots_outside outside]
      exact ⟨agrees_of_outside outside, (rebuildRoot_outside outside).mp rebuilt⟩
    · exact agrees_of_rebuildRoot_inside distinct rebuilt full outside (by omega)
  | several part several front back =>
    by_cases outside : low + part.length ≤ start ∨ stop ≤ low
    · rw [outsideRoots_outside outside]
      exact ⟨agrees_of_outside outside, (rebuildRoot_outside outside).mp rebuilt⟩
    · by_cases inside : start ≤ low ∧ low + part.length ≤ stop
      · exact agrees_of_rebuildRoot_inside distinct rebuilt full outside inside
      · obtain ⟨middle, left, right, fewer, others⟩ :=
          exists_halves_of_rebuildRoot distinct rebuilt several outside inside
        have fronts := front (distinct.mono
          (append_subset_append (siblingPairs_front_subset _ _ several) fewer)) left
        have backs := back (distinct.mono
          (append_subset_append (siblingPairs_back_subset _ _ several) others)) right
        constructor
        · exact Agrees.append fronts.1 backs.1
        · rw [fronts.2, backs.2, outsideRoots_across outside inside, List.append_assoc]

end Rebuilt

namespace NamespacedTree

/-- A range is proven exactly when it holds a leaf and only leaves of the tree. -/
theorem proveRange_eq_ok {tree : NamespacedTree} {start stop : Nat} {proof : RangeProof} :
    tree.proveRange start stop = .ok proof ↔
      (start < stop ∧ stop ≤ tree.leaves.length) ∧
        RangeProof.make tree.leaves start stop = proof := by
  rw [proveRange, checkRange]
  by_cases outside : stop ≤ start ∨ tree.leaves.length < stop
  · rw [if_pos outside]
    simp only [bind, Except.bind, reduceCtorEq, false_iff]
    omega
  · rw [if_neg outside]
    simp only [bind, Except.bind, Except.ok.injEq, iff_and_self]
    omega

end NamespacedTree

namespace RangeProof

/-- What is hashed while the hashes of leaves are checked against a range proof. -/
def nodeMessages (proof : RangeProof) (hashes : List NamespacedHash) : List Bytes :=
  (proof.pairs hashes).map fun pair => NamespacedHash.nodeMessage pair.1 pair.2

/-- A proof that names the true number of leaves is accepted exactly for the leaves of its range,
with the nodes that are made for it, unless messages collide. -/
theorem verifyLeafHashes_iff_make {tree : List NamespacedHash} (small : tree.length ≤ maxSplittable)
    {proof : RangeProof} (labelled : proof.total.toNat = tree.length)
    {hashes : List NamespacedHash}
    (free : Sha256.CollisionFree (namespacedMessages tree ++ proof.nodeMessages hashes)) :
    proof.verifyLeafHashes (namespacedRoot tree) hashes = .ok () ↔
      (proof.start.toNat < proof.stop.toNat ∧ proof.stop.toNat ≤ tree.length) ∧
        hashes = (tree.drop proof.start.toNat).take (proof.stop.toNat - proof.start.toNat) ∧
        proof.nodes = (make tree proof.start.toNat proof.stop.toNat).nodes := by
  rw [namespacedMessages, nodeMessages, ← List.map_append] at free
  have distinct := parentsDistinct_of_collisionFree free
  rw [pairs, labelled, ← Nat.zero_add tree.length] at distinct
  rw [verifyLeafHashes_eq_ok, labelled, and_assoc]
  apply and_congr_right
  intro nonempty
  apply and_congr_right
  intro inside
  change _ ↔ _ ∧ proof.nodes = outsideRoots tree 0 proof.start.toNat proof.stop.toNat
  constructor
  · rintro ⟨full, rebuilt⟩
    rw [← Nat.zero_add tree.length] at rebuilt
    have given := agrees_of_rebuildRoot distinct rebuilt full
    rw [List.append_nil] at given
    exact ⟨(agrees_iff_slice full inside).mp given.1, given.2⟩
  · rintro ⟨slice, nodes⟩
    have full : hashes.length = proof.stop.toNat - proof.start.toNat := by
      rw [slice, List.length_take, List.length_drop]
      omega
    have agree := (agrees_iff_slice full inside).mpr slice
    have rebuilt := rebuildRoot_outsideRoots agree small []
    rw [Nat.zero_add, List.append_nil, ← nodes] at rebuilt
    exact ⟨full, rebuilt⟩

end RangeProof

namespace NamespacedTree

/-- Each range of a tree is proven, and among the proofs that name the true number of leaves the
check accepts exactly one for each range, with no leaves other than those of the range: the one
whose nodes are made for it, unless messages collide. -/
theorem verifyLeafHashes_iff_proveRange (tree : NamespacedTree)
    (small : tree.leaves.length ≤ maxSplittable) :
    (∀ start stop, start < stop → stop ≤ tree.leaves.length →
      ∃ proven, tree.proveRange start stop = .ok proven ∧
        proven.start.toNat = start ∧ proven.stop.toNat = stop ∧
        proven.total.toNat = tree.leaves.length ∧
        proven.verifyLeafHashes tree.root ((tree.leaves.drop start).take (stop - start)) =
          .ok ()) ∧
    ∀ (proof : RangeProof) (hashes : List NamespacedHash),
      proof.total.toNat = tree.leaves.length →
      (proof.verifyLeafHashes tree.root hashes = .ok () ↔
        proof.start.toNat < proof.stop.toNat ∧ proof.stop.toNat ≤ tree.leaves.length ∧
          hashes = (tree.leaves.drop proof.start.toNat).take
            (proof.stop.toNat - proof.start.toNat) ∧
          ∃ proven, tree.proveRange proof.start.toNat proof.stop.toNat = .ok proven ∧
            proof.nodes = proven.nodes) ∨
        Sha256.Collision (namespacedMessages tree.leaves ++ proof.nodeMessages hashes) := by
  have word : maxSplittable < UInt64.size := by decide
  constructor
  · intro start stop nonempty inside
    refine ⟨_, proveRange_eq_ok.mpr ⟨⟨nonempty, inside⟩, rfl⟩, ?_, ?_, ?_,
      RangeProof.verifyLeafHashes_make small nonempty inside⟩
    · exact UInt64.toNat_ofNat_of_lt' (by omega)
    · exact UInt64.toNat_ofNat_of_lt' (by omega)
    · exact UInt64.toNat_ofNat_of_lt' (by omega)
  · intro proof hashes labelled
    rcases Sha256.collisionFree_or_collision
      (namespacedMessages tree.leaves ++ proof.nodeMessages hashes) with free | collision
    · left
      change proof.verifyLeafHashes (namespacedRoot tree.leaves) hashes = .ok () ↔ _
      rw [RangeProof.verifyLeafHashes_iff_make small labelled free]
      constructor
      · rintro ⟨⟨nonempty, inside⟩, slice, nodes⟩
        exact ⟨nonempty, inside, slice, _, proveRange_eq_ok.mpr ⟨⟨nonempty, inside⟩, rfl⟩, nodes⟩
      · rintro ⟨nonempty, inside, slice, proven, made, nodes⟩
        rw [← (proveRange_eq_ok.mp made).2] at nodes
        exact ⟨⟨nonempty, inside⟩, slice, nodes⟩
    · exact .inr collision

/-- Outside of the last two of three leaves there is the first one only. -/
theorem outsideRoots_of_three (first second third : NamespacedHash) :
    outsideRoots [first, second, third] 0 1 3 = [first] := by
  have outer : outsideRoots [first] 0 1 3 = [first] := by
    rw [outsideRoots_outside (by simp), namespacedRoot, combine_singleton]
  have front : outsideRoots [first, second] 0 1 3 = [first] := by
    have parts : splitPoint [first, second].length = 1 := by
      change splitPoint 2 = 1
      decide
    have inner : outsideRoots [second] 1 1 3 = [] :=
      outsideRoots_inside (by simp) (by simp)
    rw [outsideRoots_across (by simp) (by simp), parts]
    change outsideRoots [first] 0 1 3 ++ outsideRoots [second] 1 1 3 = [first]
    rw [outer, inner, List.append_nil]
  have back : outsideRoots [third] 2 1 3 = [] := outsideRoots_inside (by simp) (by simp)
  have parts : splitPoint [first, second, third].length = 2 := by
    change splitPoint 3 = 2
    decide
  rw [outsideRoots_across (by simp) (by simp), parts]
  change outsideRoots [first, second] 0 1 3 ++ outsideRoots [third] 2 1 3 = [first]
  rw [front, back, List.append_nil]

/-- In a tree of three leaves the proof of the last two holds the first leaf only, and it is the
only proof of these leaves that names three leaves. -/
theorem verifyLeafHashes_iff_proveRange_of_three :
    let first := NamespacedHash.leaf Namespace.zero [1]
    let last := [NamespacedHash.leaf Namespace.zero [2], NamespacedHash.leaf Namespace.zero [3]]
    let tree : NamespacedTree := ⟨first :: last⟩
    ∃ proven, tree.proveRange 1 3 = .ok proven ∧ proven.nodes = [first] ∧
      proven.total.toNat = tree.leaves.length ∧
      ((proven.verifyLeafHashes tree.root last = .ok () ↔
        proven.start.toNat < proven.stop.toNat ∧ proven.stop.toNat ≤ tree.leaves.length ∧
          last = (tree.leaves.drop proven.start.toNat).take
            (proven.stop.toNat - proven.start.toNat) ∧
          ∃ other, tree.proveRange proven.start.toNat proven.stop.toNat = .ok other ∧
            proven.nodes = other.nodes) ∨
        Sha256.Collision (namespacedMessages tree.leaves ++ proven.nodeMessages last)) := by
  intro first last tree
  have made : tree.proveRange 1 3 = .ok (RangeProof.make tree.leaves 1 3) :=
    proveRange_eq_ok.mpr ⟨by decide, rfl⟩
  have nodes : (RangeProof.make tree.leaves 1 3).nodes = [first] := outsideRoots_of_three _ _ _
  exact ⟨_, made, nodes, rfl, (verifyLeafHashes_iff_proveRange tree (by decide)).2 _ last rfl⟩

end NamespacedTree

end DataSquare.Merkle
