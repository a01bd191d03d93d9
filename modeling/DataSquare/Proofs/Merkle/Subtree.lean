import DataSquare.Proofs.Merkle.Grown
import DataSquare.Proofs.Merkle.Sides

/-!
# Subtrees

The recursion of a root comes to nodes, each for a range of the leaves. In a tree whose number of
leaves is a power of two it halves every range, so it comes exactly to the ranges that are as wide
as a power of two and start at a multiple of their width. These are the ranges for which the tree
gives a subtree root, and what it computes from the leaves of the range alone is the hash of the
node. The nodes of one width are themselves the leaves of a tree with the same root.
-/
namespace DataSquare.Merkle

variable {α : Type} {empty : α} {node : α → α → α} {leaves : List α}

/-- A node of a tree. -/
structure Span (α : Type) where
  /-- The first leaf below it. -/
  start : Nat
  /-- The leaf behind the last one below it. -/
  stop : Nat
  /-- The hash. -/
  hash : α

/-- The nodes that the recursion of a root comes to, over leaves that stand from `offset` on: the
range and the root for which it is called, and the nodes of both parts. -/
def visited (empty : α) (node : α → α → α) (offset : Nat) (leaves : List α) : List (Span α) :=
  ⟨offset, offset + leaves.length, combine empty node leaves⟩ ::
    if _h : leaves.length ≤ 1 then []
    else
      let count := splitPoint leaves.length
      visited empty node offset (leaves.take count) ++
        visited empty node (offset + count) (leaves.drop count)
termination_by leaves.length
decreasing_by
  · have : splitPoint leaves.length < leaves.length := splitPoint_lt (by omega)
    simp only [List.length_take]
    omega
  · have : 0 < splitPoint leaves.length := splitPoint_pos (by omega)
    simp only [List.length_drop]
    omega

/-- A single leaf is the only node of its tree. -/
theorem visited_singleton (offset : Nat) (leaf : α) :
    visited empty node offset [leaf] = [⟨offset, offset + 1, leaf⟩] := by
  rw [visited, combine_singleton]
  rfl

/-- The nodes of several leaves are the root and those of the two parts. -/
theorem visited_of_one_lt (offset : Nat) (several : 1 < leaves.length) :
    visited empty node offset leaves =
      ⟨offset, offset + leaves.length, combine empty node leaves⟩ ::
        (visited empty node offset (leaves.take (splitPoint leaves.length)) ++
          visited empty node (offset + splitPoint leaves.length)
            (leaves.drop (splitPoint leaves.length))) := by
  rw [visited, dif_neg (show ¬ leaves.length ≤ 1 by omega)]

/-- A range is as wide as a power of two and starts at a multiple of its width. -/
def IsDyadic (start stop : Nat) : Prop := ∃ height, stop = start + 2 ^ height ∧ 2 ^ height ∣ start

/-- A range of this kind within an aligned range of twice a power of two is all of it, or lies in
one of its halves. -/
theorem IsDyadic.cases {start stop offset exponent : Nat} (dyadic : IsDyadic start stop)
    (base : 2 ^ (exponent + 1) ∣ offset) (behind : offset ≤ start)
    (inside : stop ≤ offset + 2 ^ (exponent + 1)) :
    (start = offset ∧ stop = offset + 2 ^ (exponent + 1)) ∨
      stop ≤ offset + 2 ^ exponent ∨ offset + 2 ^ exponent ≤ start := by
  obtain ⟨height, rfl, aligned⟩ := dyadic
  rcases Nat.lt_or_ge exponent height with wide | narrow
  · have width : 2 ^ (exponent + 1) ≤ 2 ^ height := Nat.pow_le_pow_right (by decide) wide
    left
    omega
  · right
    -- The middle is a multiple of the width, so no range of this width runs across it.
    have divides : 2 ^ height ∣ 2 ^ exponent := Nat.pow_dvd_pow 2 narrow
    have middle : 2 ^ height ∣ offset + 2 ^ exponent :=
      Nat.dvd_add (Nat.dvd_trans (Nat.pow_dvd_pow 2 (by omega)) base) divides
    by_contra across
    have gap : 2 ^ height ∣ offset + 2 ^ exponent - start := Nat.dvd_sub middle aligned
    have room := Nat.le_of_dvd (by omega) gap
    omega

/-- A range of this kind holds a leaf. -/
theorem IsDyadic.lt {start stop : Nat} (dyadic : IsDyadic start stop) : start < stop := by
  obtain ⟨height, rfl, _⟩ := dyadic
  have positive := Nat.two_pow_pos height
  omega

section Parts

/-- A part of the leaves in front is a part of all leaves. -/
theorem take_drop_of_take {count start width : Nat} (inside : start + width ≤ count) :
    ((leaves.take count).drop start).take width = (leaves.drop start).take width := by
  rw [List.drop_take, List.take_take, Nat.min_eq_left (by omega)]

/-- A part of the leaves behind is a part of all leaves. -/
theorem take_drop_of_drop {count start width : Nat} (behind : count ≤ start) :
    ((leaves.drop count).drop (start - count)).take width = (leaves.drop start).take width := by
  rw [List.drop_drop, Nat.add_sub_cancel' behind]

/-- All leaves from the first on are the leaves. -/
theorem take_drop_self {width : Nat} (length : leaves.length = width) (offset : Nat) :
    (leaves.drop (offset - offset)).take (offset + width - offset) = leaves := by
  rw [Nat.sub_self, List.drop_zero, Nat.add_sub_cancel_left, ← length, List.take_length]

variable {exponent : Nat} (length : leaves.length = 2 ^ (exponent + 1))
include length

/-- Twice a power of two are several leaves, and half of them are on each side. -/
theorem length_halves : 1 < leaves.length ∧ splitPoint leaves.length = 2 ^ exponent ∧
    (leaves.take (2 ^ exponent)).length = 2 ^ exponent ∧
    (leaves.drop (2 ^ exponent)).length = 2 ^ exponent := by
  have double : 2 ^ (exponent + 1) = 2 ^ exponent + 2 ^ exponent := Nat.two_pow_succ exponent
  have positive := Nat.two_pow_pos exponent
  rw [List.length_take, List.length_drop, length, splitPoint_two_pow]
  omega

/-- The root over twice a power of two is the parent of the roots over both halves. -/
theorem combine_of_two_pow : combine empty node leaves =
    node (combine empty node (leaves.take (2 ^ exponent)))
      (combine empty node (leaves.drop (2 ^ exponent))) := by
  obtain ⟨several, split, _⟩ := length_halves length
  rw [combine_of_one_lt several, split]

end Parts

/-- The root over two leaves is their parent. -/
theorem combine_pair (left right : α) : combine empty node [left, right] = node left right := by
  have two : [left, right].length = 2 ^ (0 + 1) := rfl
  rw [combine_of_two_pow two]
  exact congrArg₂ node (combine_singleton left) (combine_singleton right)

/-- The nodes of a tree whose number of leaves is a power of two are the ranges as wide as a power
of two that start at a multiple of their width, each with the root over its leaves. -/
theorem mem_visited_iff {exponent offset : Nat} {span : Span α}
    (length : leaves.length = 2 ^ exponent) (base : 2 ^ exponent ∣ offset) :
    span ∈ visited empty node offset leaves ↔
      IsDyadic span.start span.stop ∧ offset ≤ span.start ∧ span.stop ≤ offset + 2 ^ exponent ∧
        span.hash = combine empty node
          ((leaves.drop (span.start - offset)).take (span.stop - span.start)) := by
  obtain ⟨start, stop, hash⟩ := span
  dsimp only
  induction exponent generalizing offset leaves with
  | zero =>
    obtain ⟨leaf, rfl⟩ := List.length_eq_one_iff.mp length
    rw [visited_singleton, List.mem_singleton, Span.mk.injEq]
    constructor
    · rintro ⟨rfl, rfl, rfl⟩
      refine ⟨⟨0, rfl, Nat.one_dvd _⟩, Nat.le_refl _, Nat.le_refl _, ?_⟩
      simp
    · rintro ⟨dyadic, behind, inside, rfl⟩
      have positive := dyadic.lt
      obtain rfl : start = offset := by omega
      obtain rfl : stop = start + 1 := by omega
      simp
  | succ exponent ih =>
    have double : 2 ^ (exponent + 1) = 2 ^ exponent + 2 ^ exponent := Nat.two_pow_succ exponent
    have half : 2 ^ exponent ∣ offset := Nat.dvd_trans (Nat.pow_dvd_pow 2 (by omega)) base
    have middle : 2 ^ exponent ∣ offset + 2 ^ exponent := Nat.dvd_add half (Nat.dvd_refl _)
    obtain ⟨several, split, frontLength, backLength⟩ := length_halves length
    rw [visited_of_one_lt offset several, split, length, List.mem_cons, List.mem_append,
      Span.mk.injEq, ih frontLength half, ih backLength middle]
    constructor
    · rintro (⟨rfl, rfl, rfl⟩ | ⟨dyadic, behind, inside, rfl⟩ | ⟨dyadic, behind, inside, rfl⟩)
      · exact ⟨⟨_, rfl, base⟩, Nat.le_refl _, Nat.le_refl _, by rw [take_drop_self length]⟩
      · have order := dyadic.lt
        exact ⟨dyadic, behind, by omega, by rw [take_drop_of_take (by omega)]⟩
      · refine ⟨dyadic, by omega, by omega, ?_⟩
        rw [← Nat.sub_sub, take_drop_of_drop (by omega)]
    · rintro ⟨dyadic, behind, inside, rfl⟩
      have order := dyadic.lt
      rcases dyadic.cases base behind inside with ⟨rfl, rfl⟩ | front | back
      · left
        exact ⟨rfl, rfl, by rw [take_drop_self length]⟩
      · right
        left
        exact ⟨dyadic, behind, front, by rw [take_drop_of_take (by omega)]⟩
      · right
        right
        refine ⟨dyadic, back, by omega, ?_⟩
        rw [← Nat.sub_sub, take_drop_of_drop (by omega)]

/-- The roots over the first parts of one width. -/
def partRoots (empty : α) (node : α → α → α) (count width : Nat) (leaves : List α) : List α :=
  (List.range count).map fun place =>
    combine empty node ((leaves.drop (place * width)).take width)

/-- There are as many roots as parts. -/
@[simp] theorem length_partRoots (count width : Nat) :
    (partRoots empty node count width leaves).length = count := by
  rw [partRoots, List.length_map, List.length_range]

/-- The parts are those of the leaves in front and those of the leaves behind. -/
theorem partRoots_add (first second width : Nat) :
    partRoots empty node (first + second) width leaves =
      partRoots empty node first width (leaves.take (first * width)) ++
        partRoots empty node second width (leaves.drop (first * width)) := by
  unfold partRoots
  rw [List.range_add, List.map_append, List.map_map]
  congr 1
  · apply List.map_congr_left
    intro place member
    have inside : (place + 1) * width ≤ first * width :=
      Nat.mul_le_mul_right width (List.mem_range.mp member)
    rw [Nat.add_mul, Nat.one_mul] at inside
    rw [take_drop_of_take inside]
  · apply List.map_congr_left
    intro place _
    rw [Function.comp_apply, List.drop_drop, Nat.add_mul]

/-- The roots over the parts of one width are the leaves of a tree with the same root. -/
theorem combine_partRoots {levels height : Nat} (length : leaves.length = 2 ^ (levels + height)) :
    combine empty node (partRoots empty node (2 ^ levels) (2 ^ height) leaves) =
      combine empty node leaves := by
  induction levels generalizing leaves with
  | zero =>
    rw [Nat.zero_add] at length
    rw [partRoots, Nat.pow_zero, List.range_one, List.map_singleton, combine_singleton,
      Nat.zero_mul, List.drop_zero, ← length, List.take_length]
  | succ levels ih =>
    rw [Nat.add_right_comm] at length
    obtain ⟨_, _, frontLength, backLength⟩ := length_halves length
    have roots : (partRoots empty node (2 ^ (levels + 1)) (2 ^ height) leaves).length =
        2 ^ (levels + 1) := length_partRoots _ _
    rw [combine_of_two_pow length, combine_of_two_pow roots, Nat.two_pow_succ, partRoots_add,
      List.take_left' (length_partRoots _ _), List.drop_left' (length_partRoots _ _),
      ← Nat.pow_add, ih frontLength, ih backLength]

namespace NamespacedTree

variable {tree : NamespacedTree} {exponent : Nat}

/-- A tree gives a subtree root exactly for the nodes of its own root. -/
theorem subtreeRoot_eq_ok_iff_visited (length : tree.leaves.length = 2 ^ exponent)
    {start stop : Nat} {root : NamespacedHash} :
    tree.subtreeRoot start stop = .ok root ↔
      ⟨start, stop, root⟩ ∈ visited NamespacedHash.empty NamespacedHash.node 0 tree.leaves := by
  have full : isPowerOfTwo tree.leaves.length = true := length ▸ isPowerOfTwo_two_pow exponent
  rw [subtreeRoot_eq_ok, mem_visited_iff length (Nat.dvd_zero _), isPowerOfTwo_iff_two_pow]
  dsimp only
  rw [Nat.zero_add, Nat.sub_zero, length]
  constructor
  · rintro ⟨⟨order, inside⟩, ⟨height, width⟩, aligned, _, rfl⟩
    rw [width] at aligned
    exact ⟨⟨height, by omega, aligned⟩, Nat.zero_le _, inside, rfl⟩
  · rintro ⟨⟨height, rfl, aligned⟩, _, inside, rfl⟩
    have positive := Nat.two_pow_pos height
    rw [Nat.add_sub_cancel_left]
    exact ⟨⟨by omega, inside⟩, ⟨height, rfl⟩, aligned, length ▸ full, rfl⟩

/-- A tree gives the subtree roots of all ranges of one width, and its root is that over these. -/
theorem exists_subtreeRoots {height : Nat} (length : tree.leaves.length = 2 ^ exponent)
    (below : height ≤ exponent) :
    ∃ roots, (List.range (2 ^ (exponent - height))).mapM
        (fun place => tree.subtreeRoot (place * 2 ^ height) ((place + 1) * 2 ^ height)) =
          .ok roots ∧ tree.root = namespacedRoot roots := by
  have levels : exponent - height + height = exponent := Nat.sub_add_cancel below
  refine ⟨partRoots NamespacedHash.empty NamespacedHash.node (2 ^ (exponent - height))
    (2 ^ height) tree.leaves, ?_, ?_⟩
  · apply mapM_eq_ok.mpr
    apply List.forall₂_map_right_iff.mpr
    apply List.forall₂_same.mpr
    intro place member
    have inside : place < 2 ^ (exponent - height) := List.mem_range.mp member
    have room : (place + 1) * 2 ^ height ≤ 2 ^ (exponent - height) * 2 ^ height :=
      Nat.mul_le_mul_right _ inside
    have positive := Nat.two_pow_pos height
    rw [← Nat.pow_add, levels, ← length, Nat.add_mul, Nat.one_mul] at room
    rw [Nat.add_mul, Nat.one_mul]
    apply subtreeRoot_eq_ok.mpr
    rw [Nat.add_sub_cancel_left]
    exact ⟨⟨by omega, room⟩, isPowerOfTwo_two_pow height, Nat.dvd_mul_left _ _,
      length ▸ isPowerOfTwo_two_pow exponent, rfl⟩
  · exact (combine_partRoots (by rw [levels, length])).symm

/-- There is a subtree root exactly for the ranges within the tree that are as wide as a power of
two and start at a multiple of their width. -/
theorem exists_subtreeRoot_iff (length : tree.leaves.length = 2 ^ exponent) {start stop : Nat} :
    (∃ root, tree.subtreeRoot start stop = .ok root) ↔
      stop ≤ tree.leaves.length ∧ ∃ height, stop - start = 2 ^ height ∧ 2 ^ height ∣ start := by
  constructor
  · rintro ⟨root, found⟩
    obtain ⟨⟨_, inside⟩, power, aligned, _, _⟩ := subtreeRoot_eq_ok.mp found
    obtain ⟨height, width⟩ := (isPowerOfTwo_iff_two_pow _).mp power
    exact ⟨inside, height, width, width ▸ aligned⟩
  · rintro ⟨inside, height, width, aligned⟩
    have positive := Nat.two_pow_pos height
    have power : isPowerOfTwo (stop - start) = true := width ▸ isPowerOfTwo_two_pow height
    have full : isPowerOfTwo tree.leaves.length = true := length ▸ isPowerOfTwo_two_pow exponent
    exact ⟨_, subtreeRoot_eq_ok.mpr ⟨⟨by omega, inside⟩, power, width.symm ▸ aligned, full, rfl⟩⟩

/-- In a tree whose number of leaves is a power of two there is a subtree root exactly for the
ranges to which the recursion of the root comes, and it is the hash of the node there. These are
the ranges within the tree that are as wide as a power of two and start at a multiple of their
width. So the roots of the subtrees of any one width exist, and the root is that over them. -/
theorem subtreeRoot_iff_visited (length : tree.leaves.length = 2 ^ exponent) :
    (∀ start stop root, tree.subtreeRoot start stop = .ok root ↔
      ⟨start, stop, root⟩ ∈ visited NamespacedHash.empty NamespacedHash.node 0 tree.leaves) ∧
    (∀ start stop, (∃ root, tree.subtreeRoot start stop = .ok root) ↔
      stop ≤ tree.leaves.length ∧ ∃ height, stop - start = 2 ^ height ∧ 2 ^ height ∣ start) ∧
    ∀ height ≤ exponent, ∃ roots, (List.range (2 ^ (exponent - height))).mapM
        (fun place => tree.subtreeRoot (place * 2 ^ height) ((place + 1) * 2 ^ height)) =
          .ok roots ∧ tree.root = namespacedRoot roots := by
  refine ⟨?_, ?_, ?_⟩
  · exact fun start stop root => subtreeRoot_eq_ok_iff_visited length
  · exact fun start stop => exists_subtreeRoot_iff length
  · exact fun height below => exists_subtreeRoots length below

/-- Four leaves have no subtree across the middle, and their root is the parent of the roots of the
two subtrees of two leaves. -/
theorem subtreeRoot_iff_visited_of_four :
    let tree : NamespacedTree :=
      ⟨[1, 2, 3, 4].map fun byte => NamespacedHash.leaf Namespace.lowestUser [byte]⟩
    tree.leaves.length = 2 ^ 2 ∧ (¬ ∃ root, tree.subtreeRoot 1 3 = .ok root) ∧
      ∃ left right, tree.subtreeRoot 0 2 = .ok left ∧ tree.subtreeRoot 2 4 = .ok right ∧
        tree.root = left.node right := by
  intro tree
  have length : tree.leaves.length = 2 ^ 2 := rfl
  obtain ⟨_, ranges, levels⟩ := subtreeRoot_iff_visited length
  refine ⟨length, ?_, ?_⟩
  · intro found
    obtain ⟨_, height, width, aligned⟩ := (ranges 1 3).mp found
    rw [← width] at aligned
    exact absurd aligned (by decide)
  · obtain ⟨roots, found, root⟩ := levels 1 (by decide)
    obtain ⟨left, rest, first, others, rfl⟩ := List.forall₂_cons_left_iff.mp (mapM_eq_ok.mp found)
    obtain ⟨right, tail, second, last, rfl⟩ := List.forall₂_cons_left_iff.mp others
    obtain rfl := List.forall₂_nil_left_iff.mp last
    refine ⟨left, right, first, second, ?_⟩
    rw [root, namespacedRoot, combine_pair]

end NamespacedTree

end DataSquare.Merkle
