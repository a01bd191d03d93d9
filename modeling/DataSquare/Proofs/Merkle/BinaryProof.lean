import DataSquare.Proofs.Merkle.Messages
import DataSquare.Proofs.Merkle.Sides
import DataSquare.Proofs.Outcome

/-!
# Proofs in plain trees

The proof of an item is accepted. Whatever is accepted is an item of the tree with the path that
belongs to it, unless messages collide, though the label may be that of another tree: it only has
to prescribe the same sides. When both numbers of items are powers of two the label is the true one,
and a label with the true number of items leaves nothing to choose: the proof is the one that is
made for the item at its index.
-/
namespace DataSquare.Merkle.Binary

open Sha256 (CollisionFree)

namespace Proof

/-- A proof is accepted exactly when its label is that of a leaf, its siblings stand on the sides of
that leaf and they lead from the item to the root. -/
theorem verify_eq_ok {proof : Proof} {root : Digest} {item : Bytes} :
    proof.verify root item = .ok () ↔ proof.index.toNat < proof.total.toNat ∧
      proof.total.toNat ≤ maxSplittable ∧
      proof.path.map Sibling.side = sides proof.index.toNat proof.total.toNat ∧
      follow node (leaf item) proof.path = root := by
  unfold verify
  dsimp only
  by_cases outside : proof.total.toNat ≤ proof.index.toNat
  · rw [if_pos outside]
    simp only [reduceCtorEq, false_iff]
    omega
  · by_cases large : maxSplittable < proof.total.toNat
    · rw [if_neg outside, if_pos large]
      simp only [reduceCtorEq, false_iff]
      omega
    · have label : proof.index.toNat < proof.total.toNat ∧
          proof.total.toNat ≤ maxSplittable := by omega
      rw [if_neg outside, if_neg large]
      by_cases shape : proof.path.map Sibling.side = sides proof.index.toNat proof.total.toNat
      · by_cases leads : follow node (leaf item) proof.path = root
        · simp [label, shape, pathRoot, leads]
        · simp [shape, pathRoot, leads]
      · simp [shape]

/-- What is hashed while an item is checked against a proof: its leaf and the parents on the way
to the root. -/
def messages (proof : Proof) (item : Bytes) : List Bytes :=
  leafMessage item :: (pathPairs node (leaf item) proof.path).map fun pair =>
    nodeMessage pair.1 pair.2

/-- The proof of an item has its index, the number of items and its siblings. -/
theorem make_eq_ok {items : List Bytes} {index : Nat} {proof : Proof} :
    make items index = .ok proof ↔ index < items.length ∧ proof =
      ⟨UInt64.ofNat index, UInt64.ofNat items.length,
        siblings emptyRoot node (items.map leaf) index⟩ := by
  rw [make, Binary.path]
  by_cases inside : index < items.length
  · rw [if_pos inside]
    simp [Except.map, inside, eq_comm]
  · rw [if_neg inside]
    simp [Except.map, inside]

/-- There is a proof of each item, and it is accepted. -/
theorem exists_make {items : List Bytes} {index : Nat} {item : Bytes}
    (small : items.length ≤ maxSplittable) (found : items[index]? = some item) :
    ∃ proof, make items index = .ok proof ∧ proof.index.toNat = index ∧
      proof.total.toNat = items.length ∧ proof.verify (root items) item = .ok () := by
  obtain ⟨inside, _⟩ := List.getElem?_eq_some_iff.mp found
  have word : maxSplittable < UInt64.size := by decide
  have position : (UInt64.ofNat index).toNat = index := UInt64.toNat_ofNat_of_lt' (by omega)
  have total : (UInt64.ofNat items.length).toNat = items.length :=
    UInt64.toNat_ofNat_of_lt' (by omega)
  have entry : (items.map leaf)[index]? = some (leaf item) := by
    rw [List.getElem?_map, found]
    rfl
  refine ⟨_, make_eq_ok.mpr ⟨inside, rfl⟩, position, total, ?_⟩
  apply verify_eq_ok.mpr
  simp only [position, total]
  refine ⟨inside, small, ?_, (follow_siblings emptyRoot node entry).1⟩
  rw [map_side_siblings, List.length_map]

section Accepted

variable {proof : Proof} {items : List Bytes} {item : Bytes} (nonempty : items ≠ [])
  (free : CollisionFree (Binary.messages items ++ proof.messages item))
  (verified : proof.verify (root items) item = .ok ())
include nonempty free verified

/-- An accepted item is one of the tree, and the path of the proof is that of the item. -/
theorem exists_item_of_verify : ∃ index, items[index]? = some item ∧
    proof.path = siblings emptyRoot node (items.map leaf) index ∧
    sides proof.index.toNat proof.total.toNat = sides index items.length := by
  obtain ⟨_, _, shape, leads⟩ := verify_eq_ok.mp verified
  have stand : ∀ hash ∈ leaf item :: items.map leaf, ∃ own, hash = leaf own ∧
      leafMessage own ∈ Binary.messages items ++ proof.messages item := by
    intro hash member
    rcases List.mem_cons.mp member with rfl | listed
    · exact ⟨item, rfl, List.mem_append_right _ List.mem_cons_self⟩
    · obtain ⟨own, inside, rfl⟩ := List.mem_map.mp listed
      exact ⟨own, rfl, List.mem_append_left _ (leafMessage_mem inside)⟩
  have inner : ((siblingPairs emptyRoot node (items.map leaf) ++
      pathPairs node (leaf item) proof.path).map fun pair => nodeMessage pair.1 pair.2) ⊆
        Binary.messages items ++ proof.messages item := by
    rw [List.map_append, messages_of_ne_nil nonempty]
    exact append_subset_append (List.subset_append_right _ _) (List.subset_cons_self _ _)
  have distinct := parentsDistinct_of_collisionFree (free.mono inner)
  have apart := parentsApart_of_collisionFree
    (free.mono (List.append_subset.mpr ⟨List.Subset.refl _, inner⟩)) stand
  obtain ⟨index, place, same⟩ :=
    exists_siblings_of_follow_eq (by simpa using nonempty) distinct apart leads
  obtain ⟨inside, hash⟩ := List.getElem?_eq_some_iff.mp place
  rw [List.length_map] at inside
  rw [List.getElem_map] at hash
  refine ⟨index, ?_, same, ?_⟩
  · have own : leafMessage items[index] ∈ Binary.messages items ++ proof.messages item :=
      List.mem_append_left _ (leafMessage_mem (List.getElem_mem inside))
    have other : leafMessage item ∈ Binary.messages items ++ proof.messages item :=
      List.mem_append_right _ List.mem_cons_self
    rw [← (List.cons.inj (free _ own _ other hash)).2]
    exact List.getElem?_eq_getElem inside
  · rw [← shape, same, map_side_siblings, List.length_map]

/-- When both the label and the tree have a power of two as the number of items, the label of an
accepted item is the true one. -/
theorem getElem?_of_verify (labelled : isPowerOfTwo proof.total.toNat = true)
    (power : isPowerOfTwo items.length = true) :
    proof.total.toNat = items.length ∧ items[proof.index.toNat]? = some item := by
  obtain ⟨label, _⟩ := verify_eq_ok.mp verified
  obtain ⟨index, found, _, same⟩ := exists_item_of_verify nonempty free verified
  obtain ⟨height, size⟩ := (isPowerOfTwo_iff_two_pow _).mp labelled
  obtain ⟨other, otherSize⟩ := (isPowerOfTwo_iff_two_pow _).mp power
  obtain ⟨inside, _⟩ := List.getElem?_eq_some_iff.mp found
  rw [size] at label
  rw [otherSize] at inside
  rw [size, otherSize] at same
  have heights := congrArg List.length same
  rw [length_sides_two_pow, length_sides_two_pow] at heights
  subst heights
  have equal := eq_of_sides_eq label inside same
  rw [equal, size, otherSize]
  exact ⟨rfl, found⟩

/-- A proof that names the true number of items is the one that is made for its index. -/
theorem make_of_verify (labelled : proof.total.toNat = items.length) :
    make items proof.index.toNat = .ok proof := by
  obtain ⟨label, _⟩ := verify_eq_ok.mp verified
  obtain ⟨index, found, path, same⟩ := exists_item_of_verify nonempty free verified
  obtain ⟨inside, _⟩ := List.getElem?_eq_some_iff.mp found
  rw [labelled] at label same
  have position : proof.index.toNat = index := eq_of_sides_eq label inside same
  apply make_eq_ok.mpr
  rw [← labelled, UInt64.ofNat_toNat, UInt64.ofNat_toNat, position, ← path]
  exact ⟨by omega, rfl⟩

end Accepted

/-- Among the proofs that name the true number of items, an item is accepted by exactly one: that of
the index where it stands, with the path that is made for it, unless messages collide. -/
theorem verify_iff_path {items : List Bytes} (small : items.length ≤ maxSplittable) {proof : Proof}
    (labelled : proof.total.toNat = items.length) (item : Bytes) :
    (proof.verify (root items) item = .ok () ↔
      proof.index.toNat < items.length ∧ items[proof.index.toNat]? = some item ∧
        ∃ made, make items proof.index.toNat = .ok made ∧ proof.path = made.path) ∨
      Sha256.Collision (Binary.messages items ++ proof.messages item) := by
  rcases Sha256.collisionFree_or_collision (Binary.messages items ++ proof.messages item) with
    free | collision
  · left
    constructor
    · intro verified
      obtain ⟨label, _⟩ := verify_eq_ok.mp verified
      rw [labelled] at label
      have nonempty : items ≠ [] := List.length_pos_iff.mp (by omega)
      obtain ⟨index, found, path, same⟩ := exists_item_of_verify nonempty free verified
      obtain ⟨inside, _⟩ := List.getElem?_eq_some_iff.mp found
      rw [labelled] at same
      have position : proof.index.toNat = index := eq_of_sides_eq label inside same
      rw [position]
      exact ⟨inside, found, _, make_eq_ok.mpr ⟨inside, rfl⟩, path⟩
    · rintro ⟨inside, found, made, produced, path⟩
      obtain ⟨_, rfl⟩ := make_eq_ok.mp produced
      have entry : (items.map leaf)[proof.index.toNat]? = some (leaf item) := by
        rw [List.getElem?_map, found]
        rfl
      apply verify_eq_ok.mpr
      rw [labelled, path]
      refine ⟨inside, small, ?_, (follow_siblings emptyRoot node entry).1⟩
      rw [map_side_siblings, List.length_map]
  · exact .inr collision

/-- In a tree of three items the proof of the last one, whose path is a single sibling, is the only
one that names three items and its index. -/
theorem verify_iff_path_of_three :
    let items : List Bytes := [[1], [2], [3]]
    ∃ made : Proof, make items 2 = .ok made ∧ made.total.toNat = items.length ∧
      made.path = [.left (node (leaf [1]) (leaf [2]))] ∧
      ((made.verify (root items) [3] = .ok () ↔
        made.index.toNat < items.length ∧ items[made.index.toNat]? = some [3] ∧
          ∃ other, make items made.index.toNat = .ok other ∧ made.path = other.path) ∨
        Sha256.Collision (Binary.messages items ++ made.messages [3])) := by
  intro items
  have parts : splitPoint 3 = 2 := by decide
  have halves : splitPoint 2 = 1 := by decide
  have front : combine emptyRoot node [leaf [1], leaf [2]] = node (leaf [1]) (leaf [2]) := by
    rw [combine_of_one_lt (show 1 < [leaf [1], leaf [2]].length by decide)]
    change node (combine emptyRoot node ([leaf [1], leaf [2]].take (splitPoint 2)))
      (combine emptyRoot node ([leaf [1], leaf [2]].drop (splitPoint 2))) = _
    simp [halves]
  have last : siblings emptyRoot node [leaf [1], leaf [2], leaf [3]] 2 =
      [.left (node (leaf [1]) (leaf [2]))] := by
    rw [siblings_of_le (show 1 < [leaf [1], leaf [2], leaf [3]].length by decide)
      (show splitPoint 3 ≤ 2 by decide)]
    change siblings emptyRoot node ([leaf [1], leaf [2], leaf [3]].drop (splitPoint 3))
      (2 - splitPoint 3) ++ [.left (combine emptyRoot node
        ([leaf [1], leaf [2], leaf [3]].take (splitPoint 3)))] = _
    rw [parts, siblings_of_le_one (by decide)]
    simp [front]
  have small : items.length ≤ maxSplittable := by decide
  have labelled : (⟨2, 3, siblings emptyRoot node (items.map leaf) 2⟩ : Proof).total.toNat =
      items.length := rfl
  exact ⟨_, make_eq_ok.mpr ⟨by decide, rfl⟩, labelled, last,
    verify_iff_path small labelled [3]⟩

end Proof

end DataSquare.Merkle.Binary
