import DataSquare.Proofs.Merkle.Binding

/-!
# Paths in Merkle trees

A path of siblings leads from a leaf to the root, and each step of it is the parent of a pair. The
siblings of a leaf lead to the root of its tree. Conversely, when parents are distinct and none is
a leaf, a path that leads to the root of a tree is the path of one of its leaves: the last step
has to be the parent below the root, and the path in front of it leads to one of the two parts.
-/
namespace DataSquare.Merkle

variable {α : Type} {empty : α} {node : α → α → α}

/-- A sibling with the node beside it, in order. -/
def Sibling.pair (below : α) : Sibling α → α × α
  | .left hash => (hash, below)
  | .right hash => (below, hash)

/-- The pairs whose parents are met on a path from a leaf. -/
def pathPairs (node : α → α → α) (leaf : α) : List (Sibling α) → List (α × α)
  | [] => []
  | sibling :: rest =>
    sibling.pair leaf :: pathPairs node (node (sibling.pair leaf).1 (sibling.pair leaf).2) rest

section Append

variable {leaf : α} {front : List (Sibling α)} {sibling : Sibling α}

/-- The first step of a path leads to the parent of the leaf and the sibling. -/
theorem follow_cons : follow node leaf (sibling :: front) =
    follow node (node (sibling.pair leaf).1 (sibling.pair leaf).2) front := by
  cases sibling <;> rfl

/-- The last step of a path leads to the parent of what the steps before led to. -/
theorem follow_concat : follow node leaf (front ++ [sibling]) =
    node (sibling.pair (follow node leaf front)).1 (sibling.pair (follow node leaf front)).2 := by
  unfold follow
  rw [List.foldl_append]
  cases sibling <;> rfl

/-- The last pair of a path is that of its last step. -/
theorem pathPairs_concat : pathPairs node leaf (front ++ [sibling]) =
    pathPairs node leaf front ++ [sibling.pair (follow node leaf front)] := by
  induction front generalizing leaf with
  | nil => rfl
  | cons first front ih =>
    rw [List.cons_append, pathPairs, ih, pathPairs, follow_cons, List.cons_append]

end Append

section Tree

variable {leaves : List α} {index : Nat}

/-- There are no siblings in a tree of one leaf. -/
theorem siblings_of_le_one (few : leaves.length ≤ 1) : siblings empty node leaves index = [] := by
  rw [siblings, dif_pos few]

/-- The siblings of a leaf on the left are those in the left part, and then the right part. -/
theorem siblings_of_lt (several : 1 < leaves.length) (inside : index < splitPoint leaves.length) :
    siblings empty node leaves index =
      siblings empty node (leaves.take (splitPoint leaves.length)) index ++
        [.right (combine empty node (leaves.drop (splitPoint leaves.length)))] := by
  rw [siblings, dif_neg (show ¬ leaves.length ≤ 1 by omega)]
  exact if_pos inside

/-- The siblings of a leaf on the right are those in the right part, and then the left part. -/
theorem siblings_of_le (several : 1 < leaves.length) (outside : splitPoint leaves.length ≤ index) :
    siblings empty node leaves index =
      siblings empty node (leaves.drop (splitPoint leaves.length))
          (index - splitPoint leaves.length) ++
        [.left (combine empty node (leaves.take (splitPoint leaves.length)))] := by
  rw [siblings, dif_neg (show ¬ leaves.length ≤ 1 by omega)]
  exact if_neg (show ¬ index < splitPoint leaves.length by omega)

variable (empty node) in
/-- The siblings of a leaf lead to the root, and the parents on the way are those of the tree. -/
theorem follow_siblings {leaf : α} (found : leaves[index]? = some leaf) :
    follow node leaf (siblings empty node leaves index) = combine empty node leaves ∧
      pathPairs node leaf (siblings empty node leaves index) ⊆ siblingPairs empty node leaves := by
  induction leaves using splitInduction generalizing index with
  | few leaves few =>
    obtain ⟨inside, entry⟩ := List.getElem?_eq_some_iff.mp found
    obtain ⟨own, rfl⟩ := List.length_eq_one_iff.mp (show leaves.length = 1 by omega)
    obtain rfl : own = leaf := by simpa using entry
    rw [siblings_of_le_one few]
    exact ⟨(combine_singleton own).symm, List.nil_subset _⟩
  | several leaves several front back =>
    have top := pair_mem_siblingPairs empty node several
    by_cases inside : index < splitPoint leaves.length
    · obtain ⟨root, pairs⟩ := front (by rw [List.getElem?_take_of_lt inside, found])
      rw [siblings_of_lt several inside, follow_concat, pathPairs_concat, root,
        combine_of_one_lt several]
      refine ⟨rfl, List.append_subset.mpr ⟨?_, List.cons_subset.mpr ⟨top, List.nil_subset _⟩⟩⟩
      exact List.Subset.trans pairs (siblingPairs_front_subset empty node several)
    · have outside : splitPoint leaves.length ≤ index := by omega
      have entry : (leaves.drop (splitPoint leaves.length))[index - splitPoint leaves.length]? =
          .some leaf := by rw [List.getElem?_drop, Nat.add_sub_cancel' outside, found]
      obtain ⟨root, pairs⟩ := back entry
      rw [siblings_of_le several outside, follow_concat, pathPairs_concat, root,
        combine_of_one_lt several]
      refine ⟨rfl, List.append_subset.mpr ⟨?_, List.cons_subset.mpr ⟨top, List.nil_subset _⟩⟩⟩
      exact List.Subset.trans pairs (siblingPairs_back_subset empty node several)

section Accepted

variable {leaf : α} {steps : List (Sibling α)} {sibling : Sibling α}

/-- The last pair of a path that leads to the root of a tree is the one below the root, when parents
determine their pairs. -/
theorem last_pair_eq (several : 1 < leaves.length)
    (distinct : ParentsDistinct node
      (siblingPairs empty node leaves ++ pathPairs node leaf (steps ++ [sibling])))
    (same : follow node leaf (steps ++ [sibling]) = combine empty node leaves) :
    sibling.pair (follow node leaf steps) =
      (combine empty node (leaves.take (splitPoint leaves.length)),
        combine empty node (leaves.drop (splitPoint leaves.length))) := by
  rw [follow_concat, combine_of_one_lt several] at same
  have last : sibling.pair (follow node leaf steps) ∈
      pathPairs node leaf (steps ++ [sibling]) := by
    rw [pathPairs_concat]
    exact List.mem_append_right _ List.mem_cons_self
  exact distinct _ (List.mem_append_right _ last) _
    (List.mem_append_left _ (pair_mem_siblingPairs empty node several)) same

/-- A path leads to a leaf of a tree of one leaf only when it has no step. -/
theorem eq_nil_of_follow_eq {own : α} {path : List (Sibling α)}
    (apart : ParentsApart node (pathPairs node leaf path) [own])
    (same : follow node leaf path = own) : path = [] := by
  rcases List.eq_nil_or_concat' path with rfl | ⟨steps, sibling, rfl⟩
  · rfl
  · rw [follow_concat] at same
    rw [pathPairs_concat] at apart
    exact absurd same (apart _ (List.mem_append_right _ List.mem_cons_self) own List.mem_cons_self)

/-- A path that leads to the root of a tree is the path of one of its leaves, when parents
determine their pairs and none is a leaf. -/
theorem exists_siblings_of_follow_eq {leaf : α} {path : List (Sibling α)} (nonempty : leaves ≠ [])
    (distinct : ParentsDistinct node (siblingPairs empty node leaves ++ pathPairs node leaf path))
    (apart : ParentsApart node (siblingPairs empty node leaves ++ pathPairs node leaf path)
      (leaf :: leaves))
    (same : follow node leaf path = combine empty node leaves) :
    ∃ index, leaves[index]? = some leaf ∧ path = siblings empty node leaves index := by
  induction leaves using splitInduction generalizing path with
  | few leaves few =>
    have positive := List.length_pos_iff.mpr nonempty
    obtain ⟨own, rfl⟩ := List.length_eq_one_iff.mp (Nat.le_antisymm few positive)
    rw [combine_singleton] at same
    obtain rfl := eq_nil_of_follow_eq (apart.mono (List.subset_append_right _ _)
      (List.subset_cons_self _ _)) same
    exact ⟨0, congrArg Option.some same.symm, (siblings_of_le_one few).symm⟩
  | several leaves several front back =>
    rcases List.eq_nil_or_concat' path with rfl | ⟨steps, sibling, rfl⟩
    · rw [combine_of_one_lt several] at same
      have top := pair_mem_siblingPairs empty node several
      exact absurd same.symm (apart _ (List.mem_append_left _ top) leaf List.mem_cons_self)
    · have pair := last_pair_eq several distinct same
      have earlier : pathPairs node leaf steps ⊆ pathPairs node leaf (steps ++ [sibling]) := by
        rw [pathPairs_concat]
        exact List.subset_append_left _ _
      have fronts := append_subset_append (siblingPairs_front_subset empty node several) earlier
      have backs := append_subset_append (siblingPairs_back_subset empty node several) earlier
      -- The last sibling is one of the two parts, and the steps before lead to the other one.
      cases sibling with
      | right hash =>
        obtain ⟨root, rfl⟩ := Prod.mk.inj pair
        obtain ⟨index, found, rfl⟩ := front (take_splitPoint_ne_nil several)
          (distinct.mono fronts)
          (apart.mono fronts (List.cons_subset_cons _ (List.take_subset _ _))) root
        obtain ⟨inside, entry⟩ := getElem?_of_take found
        exact ⟨index, entry, (siblings_of_lt several inside).symm⟩
      | left hash =>
        obtain ⟨rfl, root⟩ := Prod.mk.inj pair
        obtain ⟨index, found, rfl⟩ := back (drop_splitPoint_ne_nil several)
          (distinct.mono backs)
          (apart.mono backs (List.cons_subset_cons _ (List.drop_subset _ _))) root
        rw [List.getElem?_drop] at found
        refine ⟨splitPoint leaves.length + index, found, ?_⟩
        rw [siblings_of_le several (Nat.le_add_right _ _), Nat.add_sub_cancel_left]

end Accepted

end Tree

end DataSquare.Merkle
