import DataSquare.Merkle.Namespaced
import DataSquare.Proofs.Hash.Collision

/-!
# Roots bind leaves

A root is computed from pairs of siblings, one for each inner node. When no two different pairs
that were met have one parent, equal roots over equally many leaves have equal leaves, and when
moreover no parent is a leaf, equal roots have equally many leaves. For the trees of the square a
parent is the digest of a message, so both hold unless two of the hashed messages collide.
-/
namespace DataSquare.Merkle

variable {α : Type} {empty : α} {node : α → α → α}

/-- The pairs of siblings whose parents make up the root over leaves. -/
def siblingPairs (empty : α) (node : α → α → α) (leaves : List α) : List (α × α) :=
  if _h : leaves.length ≤ 1 then []
  else
    let count := splitPoint leaves.length
    (combine empty node (leaves.take count), combine empty node (leaves.drop count)) ::
      (siblingPairs empty node (leaves.take count) ++ siblingPairs empty node (leaves.drop count))
termination_by leaves.length
decreasing_by
  · have : splitPoint leaves.length < leaves.length := splitPoint_lt (by omega)
    simp only [List.length_take]
    omega
  · have : 0 < splitPoint leaves.length := splitPoint_pos (by omega)
    simp only [List.length_drop]
    omega

/-- The root over a single leaf is the leaf. -/
@[simp] theorem combine_singleton (leaf : α) : combine empty node [leaf] = leaf := by
  rw [combine]
  rfl

/-- The root over no leaves. -/
@[simp] theorem combine_nil : combine empty node [] = empty := by
  rw [combine]
  rfl

/-- The root over several leaves is the parent of the roots over their two parts. -/
theorem combine_of_one_lt {leaves : List α} (several : 1 < leaves.length) :
    combine empty node leaves =
      node (combine empty node (leaves.take (splitPoint leaves.length)))
        (combine empty node (leaves.drop (splitPoint leaves.length))) := by
  rw [combine, dif_neg (show ¬ leaves.length ≤ 1 by omega)]

/-- The pairs of a tree of several leaves are the one below the root and those of both parts. -/
theorem siblingPairs_of_one_lt {leaves : List α} (several : 1 < leaves.length) :
    siblingPairs empty node leaves =
      (combine empty node (leaves.take (splitPoint leaves.length)),
        combine empty node (leaves.drop (splitPoint leaves.length))) ::
      (siblingPairs empty node (leaves.take (splitPoint leaves.length)) ++
        siblingPairs empty node (leaves.drop (splitPoint leaves.length))) := by
  rw [siblingPairs, dif_neg (show ¬ leaves.length ≤ 1 by omega)]

section Parts

variable {leaves : List α} (several : 1 < leaves.length)
include several

/-- The left part of a tree has as many leaves as the split point tells. -/
theorem length_take_splitPoint :
    (leaves.take (splitPoint leaves.length)).length = splitPoint leaves.length := by
  have upper := splitPoint_lt several
  rw [List.length_take, Nat.min_eq_left (by omega)]

/-- The right part of a tree that stands from a position on ends where the tree does. -/
theorem add_length_drop_splitPoint (low : Nat) :
    low + splitPoint leaves.length + (leaves.drop (splitPoint leaves.length)).length =
      low + leaves.length := by
  have upper := splitPoint_lt several
  rw [List.length_drop]
  omega

/-- The left part of a tree has a leaf. -/
theorem take_splitPoint_ne_nil : leaves.take (splitPoint leaves.length) ≠ [] := by
  have lower := splitPoint_pos several
  exact List.length_pos_iff.mp (by simp only [List.length_take]; omega)

/-- The right part of a tree has a leaf. -/
theorem drop_splitPoint_ne_nil : leaves.drop (splitPoint leaves.length) ≠ [] := by
  have upper := splitPoint_lt several
  exact List.length_pos_iff.mp (by simp only [List.length_drop]; omega)

variable (empty node) in
/-- The pair below the root is one of the pairs of a tree. -/
theorem pair_mem_siblingPairs :
    (combine empty node (leaves.take (splitPoint leaves.length)),
      combine empty node (leaves.drop (splitPoint leaves.length))) ∈
        siblingPairs empty node leaves := by
  rw [siblingPairs_of_one_lt several]
  exact List.mem_cons_self

variable (empty node) in
/-- The pairs of the left part are among those of the tree. -/
theorem siblingPairs_front_subset :
    siblingPairs empty node (leaves.take (splitPoint leaves.length)) ⊆
      siblingPairs empty node leaves := by
  rw [siblingPairs_of_one_lt several]
  exact fun _ member => List.mem_cons_of_mem _ (List.mem_append_left _ member)

variable (empty node) in
/-- The pairs of the right part are among those of the tree. -/
theorem siblingPairs_back_subset :
    siblingPairs empty node (leaves.drop (splitPoint leaves.length)) ⊆
      siblingPairs empty node leaves := by
  rw [siblingPairs_of_one_lt several]
  exact fun _ member => List.mem_cons_of_mem _ (List.mem_append_right _ member)

end Parts

/-- The parent of a pair determines it, among the given pairs. -/
def ParentsDistinct (node : α → α → α) (pairs : List (α × α)) : Prop :=
  ∀ left ∈ pairs, ∀ right ∈ pairs, node left.1 left.2 = node right.1 right.2 → left = right

/-- Parents that determine their pairs determine fewer pairs as well. -/
theorem ParentsDistinct.mono {part all : List (α × α)} (distinct : ParentsDistinct node all)
    (included : part ⊆ all) : ParentsDistinct node part :=
  fun left memLeft right memRight => distinct left (included memLeft) right (included memRight)

/-- Two trees of several leaves with one root agree in the pairs below the root. -/
theorem parts_eq_of_combine_eq {left right : List α} (severalLeft : 1 < left.length)
    (severalRight : 1 < right.length)
    (distinct : ParentsDistinct node
      (siblingPairs empty node left ++ siblingPairs empty node right))
    (same : combine empty node left = combine empty node right) :
    combine empty node (left.take (splitPoint left.length)) =
        combine empty node (right.take (splitPoint right.length)) ∧
      combine empty node (left.drop (splitPoint left.length)) =
        combine empty node (right.drop (splitPoint right.length)) := by
  rw [combine_of_one_lt severalLeft, combine_of_one_lt severalRight] at same
  have pairs := distinct _ (List.mem_append_left _ (pair_mem_siblingPairs empty node severalLeft))
    _ (List.mem_append_right _ (pair_mem_siblingPairs empty node severalRight)) same
  exact Prod.mk.inj pairs

/-- An entry of the front of a list is found in the list at the same position. -/
theorem getElem?_of_take {β : Type} {items : List β} {count position : Nat} {item : β}
    (found : (items.take count)[position]? = some item) :
    position < count ∧ items[position]? = some item := by
  rw [List.getElem?_take] at found
  split at found
  · exact ⟨by assumption, found⟩
  · contradiction

/-- Lists of parts are part of the lists put together. -/
theorem append_subset_append {β : Type} {one other all whole : List β} (first : one ⊆ all)
    (second : other ⊆ whole) : one ++ other ⊆ all ++ whole :=
  List.append_subset.mpr ⟨List.subset_append_of_subset_left _ first,
    List.subset_append_of_subset_right _ second⟩

/-- What is shown of trees by way of their two parts. -/
theorem splitInduction {motive : List α → Prop}
    (few : ∀ leaves : List α, leaves.length ≤ 1 → motive leaves)
    (several : ∀ leaves : List α, 1 < leaves.length →
      motive (leaves.take (splitPoint leaves.length)) →
      motive (leaves.drop (splitPoint leaves.length)) → motive leaves)
    (leaves : List α) : motive leaves := by
  induction size : leaves.length using Nat.strong_induction_on generalizing leaves with
  | _ size ih =>
    subst size
    rcases Nat.lt_or_ge 1 leaves.length with many | one
    · have lower := splitPoint_pos many
      have upper := splitPoint_lt many
      apply several leaves many
      · exact ih _ (by simp only [List.length_take]; omega) _ rfl
      · exact ih _ (by simp only [List.length_drop]; omega) _ rfl
    · exact few leaves one

/-- Equal roots over equally many leaves have equal leaves when parents determine their pairs. -/
theorem combine_injective {left right : List α} (length : left.length = right.length)
    (distinct : ParentsDistinct node
      (siblingPairs empty node left ++ siblingPairs empty node right))
    (same : combine empty node left = combine empty node right) : left = right := by
  induction left using splitInduction generalizing right with
  | few left few =>
    match left, right, length, few with
    | [], [], _, _ => rfl
    | [leaf], [other], _, _ =>
      rw [combine_singleton, combine_singleton] at same
      rw [same]
  | several left several front back =>
    have severalRight : 1 < right.length := by omega
    obtain ⟨roots, rest⟩ := parts_eq_of_combine_eq several severalRight distinct same
    have sameFront := front (by simp only [List.length_take, length])
      (distinct.mono (append_subset_append (siblingPairs_front_subset empty node several)
        (siblingPairs_front_subset empty node severalRight))) roots
    have sameBack := back (by simp only [List.length_drop, length])
      (distinct.mono (append_subset_append (siblingPairs_back_subset empty node several)
        (siblingPairs_back_subset empty node severalRight))) rest
    rw [← List.take_append_drop (splitPoint left.length) left, sameFront, sameBack,
      List.take_append_drop]

/-- No parent of the given pairs is one of the given leaves. -/
def ParentsApart (node : α → α → α) (pairs : List (α × α)) (leaves : List α) : Prop :=
  ∀ pair ∈ pairs, ∀ leaf ∈ leaves, node pair.1 pair.2 ≠ leaf

/-- Parents that are none of the leaves are so for fewer pairs and leaves as well. -/
theorem ParentsApart.mono {part all : List (α × α)} {fewer leaves : List α}
    (apart : ParentsApart node all leaves) (included : part ⊆ all) (less : fewer ⊆ leaves) :
    ParentsApart node part fewer :=
  fun pair member leaf inside => apart pair (included member) leaf (less inside)

/-- A tree of one leaf and one of several have different roots. -/
theorem combine_singleton_ne {leaf : α} {leaves : List α} (several : 1 < leaves.length)
    (apart : ParentsApart node (siblingPairs empty node leaves) [leaf]) :
    combine empty node [leaf] ≠ combine empty node leaves := by
  intro same
  rw [combine_singleton, combine_of_one_lt several] at same
  exact apart _ (pair_mem_siblingPairs empty node several) leaf List.mem_cons_self same.symm

/-- Equal roots over leaves have equally many of them when parents determine their pairs and no
parent is a leaf. -/
theorem length_eq_of_combine_eq {left right : List α} (someLeft : left ≠ [])
    (someRight : right ≠ [])
    (distinct : ParentsDistinct node
      (siblingPairs empty node left ++ siblingPairs empty node right))
    (apart : ParentsApart node (siblingPairs empty node left ++ siblingPairs empty node right)
      (left ++ right))
    (same : combine empty node left = combine empty node right) : left.length = right.length := by
  induction left using splitInduction generalizing right with
  | few left few =>
    have positive := List.length_pos_iff.mpr someLeft
    obtain ⟨leaf, rfl⟩ := List.length_eq_one_iff.mp (Nat.le_antisymm few positive)
    rcases Nat.lt_or_ge 1 right.length with severalRight | fewRight
    · have own := apart.mono (List.subset_append_right _ _) (List.subset_append_left [leaf] right)
      exact absurd same (combine_singleton_ne severalRight own)
    · exact Nat.le_antisymm (List.length_pos_iff.mpr someRight) fewRight
  | several left several front back =>
    rcases Nat.lt_or_ge 1 right.length with severalRight | fewRight
    · obtain ⟨roots, rest⟩ := parts_eq_of_combine_eq several severalRight distinct same
      have fronts := append_subset_append (siblingPairs_front_subset empty node several)
        (siblingPairs_front_subset empty node severalRight)
      have backs := append_subset_append (siblingPairs_back_subset empty node several)
        (siblingPairs_back_subset empty node severalRight)
      have sameFront := front (take_splitPoint_ne_nil several)
        (take_splitPoint_ne_nil severalRight) (distinct.mono fronts)
        (apart.mono fronts (append_subset_append (List.take_subset _ _) (List.take_subset _ _)))
        roots
      have sameBack := back (drop_splitPoint_ne_nil several)
        (drop_splitPoint_ne_nil severalRight) (distinct.mono backs)
        (apart.mono backs (append_subset_append (List.drop_subset _ _) (List.drop_subset _ _)))
        rest
      have lower := splitPoint_lt several
      have lowerRight := splitPoint_lt severalRight
      simp only [List.length_take, List.length_drop] at sameFront sameBack
      omega
    · have positive := List.length_pos_iff.mpr someRight
      obtain ⟨leaf, rfl⟩ := List.length_eq_one_iff.mp (Nat.le_antisymm fewRight positive)
      have own := apart.mono (List.subset_append_left _ _) (List.subset_append_right left [leaf])
      exact absurd same.symm (combine_singleton_ne several own)

end DataSquare.Merkle
