import DataSquare.Proofs.Merkle.Range
import DataSquare.Proofs.Outcome

/-!
# Trees that grow leaf by leaf

A leaf is appended only when its namespace is not below that of the last leaf, and an attempt that
is refused leaves the tree as it is. So however often and with whatever it is tried, the leaves of
a tree stand in the order of their namespaces. Its root reports the range of these, and so does the
root of every subtree for the leaves below it.
-/
namespace DataSquare.Merkle

namespace NamespacedTree

variable {tree grown : NamespacedTree} {ns : Namespace} {data : Bytes}

/-- The namespaces of the leaves in order. -/
def namespaces (tree : NamespacedTree) : List Namespace := tree.leaves.map NamespacedHash.min

/-- A leaf is appended exactly when its namespace is not below that of the last one. -/
theorem push_eq_ok : tree.push ns data = .ok grown ↔
    (∀ last ∈ tree.leaves.getLast?, last.max ≤ ns) ∧
      grown = ⟨tree.leaves ++ [NamespacedHash.leaf ns data]⟩ := by
  unfold push
  cases tree.leaves.getLast? with
  | none => simp [eq_comm]
  | some last =>
    by_cases below : ns < last.max
    · simp [below, Namespace.not_le]
    · simp [below, Namespace.not_lt.mp below, eq_comm]

/-- The tree after an attempt to append a leaf. One that is refused leaves the tree as it is. -/
def attempt (tree : NamespacedTree) (leaf : Namespace × Bytes) : NamespacedTree :=
  (tree.push leaf.1 leaf.2).toOption.getD tree

/-- The tree after attempts to append leaves, one after the other. -/
def ofAttempts (attempts : List (Namespace × Bytes)) : NamespacedTree :=
  attempts.foldl attempt empty

/-- An attempt appends the leaf, or its namespace is below that of the last one and nothing
changes. -/
theorem attempt_cases (tree : NamespacedTree) (leaf : Namespace × Bytes) :
    ((∀ last ∈ tree.leaves.getLast?, last.max ≤ leaf.1) ∧
      (tree.attempt leaf).leaves = tree.leaves ++ [NamespacedHash.leaf leaf.1 leaf.2]) ∨
    ((∃ last ∈ tree.leaves.getLast?, leaf.1 < last.max) ∧ tree.attempt leaf = tree) := by
  unfold attempt
  cases pushed : tree.push leaf.1 leaf.2 with
  | ok grown =>
    obtain ⟨fits, rfl⟩ := push_eq_ok.mp pushed
    exact .inl ⟨fits, rfl⟩
  | error cause =>
    have refused : ¬ ∀ last ∈ tree.leaves.getLast?, last.max ≤ leaf.1 := by
      intro fits
      rw [push_eq_ok.mpr ⟨fits, rfl⟩] at pushed
      contradiction
    simp only [not_forall, Namespace.not_le, exists_prop] at refused
    exact .inr ⟨refused, rfl⟩

/-- A leaf behind leaves in order keeps them in order when its namespace is not below that of the
last one. -/
theorem inOrder_append {leaves : List NamespacedHash} (inOrder : InOrder leaves)
    (fits : ∀ last ∈ leaves.getLast?, last.max ≤ ns) (data : Bytes) :
    InOrder (leaves ++ [NamespacedHash.leaf ns data]) where
  leaf hash member := by
    rcases List.mem_append.mp member with before | new
    · exact inOrder.leaf hash before
    · exact ⟨ns, data, List.mem_singleton.mp new⟩
  ordered := by
    rw [List.map_append, List.pairwise_append]
    refine ⟨inOrder.ordered, List.pairwise_singleton _ _, ?_⟩
    intro earlier member other new
    obtain rfl : other = ns := List.mem_singleton.mp new
    -- The last leaf has the greatest namespace so far.
    obtain ⟨front, last, rfl⟩ : ∃ front last, leaves = front ++ [last] := by
      rcases List.eq_nil_or_concat leaves with rfl | ⟨front, last, whole⟩
      · contradiction
      · exact ⟨front, last, by simpa using whole⟩
    have bound : last.max ≤ other := fits last (by simp)
    obtain ⟨own, bytes, same⟩ := inOrder.leaf last (by simp)
    have ordered := inOrder.ordered
    rw [List.map_append, List.pairwise_append] at ordered
    rw [List.map_append] at member
    rcases List.mem_append.mp member with inside | atEnd
    · have below : earlier ≤ last.min := ordered.2.2 earlier inside _ (List.mem_singleton_self _)
      rw [same] at below bound
      exact Namespace.le_trans below bound
    · rw [List.mem_singleton.mp atEnd]
      rw [same] at bound ⊢
      exact bound

/-- An attempt keeps leaves in order. -/
theorem inOrder_attempt (inOrder : InOrder tree.leaves) (leaf : Namespace × Bytes) :
    InOrder (tree.attempt leaf).leaves := by
  rcases attempt_cases tree leaf with ⟨fits, leaves⟩ | ⟨_, same⟩
  · rw [leaves]
    exact inOrder_append inOrder fits leaf.2
  · rw [same]
    exact inOrder

/-- Attempts keep leaves in order. -/
theorem inOrder_foldl_attempt (attempts : List (Namespace × Bytes))
    (inOrder : InOrder tree.leaves) : InOrder (attempts.foldl attempt tree).leaves := by
  induction attempts generalizing tree with
  | nil => exact inOrder
  | cons leaf attempts ih => exact ih (inOrder_attempt inOrder leaf)

/-- The leaves of a tree that grew by attempts are in order. -/
theorem inOrder_ofAttempts (attempts : List (Namespace × Bytes)) :
    InOrder (ofAttempts attempts).leaves := by
  apply inOrder_foldl_attempt
  constructor
  · intro hash member
    contradiction
  · exact List.Pairwise.nil

/-- A subtree is a range of leaves that is a power of two long and starts at a multiple of its
length, in a tree whose number of leaves is a power of two. -/
theorem subtreeRoot_eq_ok {start stop : Nat} {root : NamespacedHash} :
    tree.subtreeRoot start stop = .ok root ↔
      (start < stop ∧ stop ≤ tree.leaves.length) ∧ isPowerOfTwo (stop - start) = true ∧
        stop - start ∣ start ∧ isPowerOfTwo tree.leaves.length = true ∧
        root = namespacedRoot ((tree.leaves.drop start).take (stop - start)) := by
  rw [subtreeRoot, bind_eq_ok, checkRange]
  by_cases range : stop ≤ start ∨ tree.leaves.length < stop
  · have outside : ¬ (start < stop ∧ stop ≤ tree.leaves.length) := by omega
    simp [range, outside]
  · have inside : start < stop ∧ stop ≤ tree.leaves.length := by omega
    rw [if_neg range]
    simp only [exists_const, Nat.dvd_iff_mod_eq_zero]
    by_cases subtree : (isPowerOfTwo (stop - start) && start % (stop - start) == 0 &&
        isPowerOfTwo tree.leaves.length) = true
    · rw [if_pos subtree]
      simp only [Bool.and_eq_true, beq_iff_eq] at subtree
      simp [subtree, inside, eq_comm]
    · rw [if_neg subtree]
      simp only [Bool.and_eq_true, beq_iff_eq] at subtree
      simp only [reduceCtorEq, and_false, false_iff]
      rintro ⟨_, width, aligned, leaves, _⟩
      exact subtree ⟨⟨width, aligned⟩, leaves⟩

/-- The root of a subtree of leaves in order reports the range of the leaves below it. -/
theorem reports_subtreeRoot (inOrder : InOrder tree.leaves) {start stop : Nat}
    {root : NamespacedHash} (found : tree.subtreeRoot start stop = .ok root) :
    Reports root ((tree.namespaces.drop start).take (stop - start)) := by
  obtain ⟨⟨nonempty, inside⟩, _, _, _, rfl⟩ := subtreeRoot_eq_ok.mp found
  rw [namespaces, ← List.map_drop, ← List.map_take]
  apply InOrder.reports_root
  · exact inOrder.sublist ((List.take_sublist _ _).trans (List.drop_sublist _ _))
  · apply List.length_pos_iff.mp
    rw [List.length_take, List.length_drop]
    omega

/-- The leaves of a tree that grew by attempts are some of those that were tried, in their order. -/
theorem exists_leaves_foldl_attempt (tree : NamespacedTree) (attempts : List (Namespace × Bytes)) :
    ∃ kept : List (Namespace × Bytes), kept.Sublist attempts ∧
      (attempts.foldl attempt tree).leaves =
        tree.leaves ++ kept.map fun leaf => NamespacedHash.leaf leaf.1 leaf.2 := by
  induction attempts generalizing tree with
  | nil => exact ⟨[], List.Sublist.refl [], (List.append_nil _).symm⟩
  | cons leaf attempts ih =>
    obtain ⟨kept, nonempty, leaves⟩ := ih (tree.attempt leaf)
    rw [List.foldl_cons, leaves]
    rcases attempt_cases tree leaf with ⟨_, appended⟩ | ⟨_, same⟩
    · exact ⟨leaf :: kept, nonempty.cons_cons leaf, by rw [appended, List.append_assoc]; rfl⟩
    · exact ⟨kept, nonempty.cons leaf, by rw [same]⟩

/-- However a tree grew, if it has a leaf then its leaves are some of those that were tried, they
stand in the order of their namespaces, and the root reports the range of these. So does the root of
every subtree for the leaves below it. -/
theorem reports_of_attempts (attempts : List (Namespace × Bytes))
    (nonempty : (ofAttempts attempts).leaves ≠ []) :
    ∃ kept : List (Namespace × Bytes), kept.Sublist attempts ∧
      (ofAttempts attempts).leaves =
        kept.map (fun leaf => NamespacedHash.leaf leaf.1 leaf.2) ∧
      (kept.map Prod.fst).Pairwise (· ≤ ·) ∧
      Reports (ofAttempts attempts).root (kept.map Prod.fst) ∧
      ∀ start stop root, (ofAttempts attempts).subtreeRoot start stop = .ok root →
        Reports root (((kept.map Prod.fst).drop start).take (stop - start)) := by
  obtain ⟨kept, tried, leaves⟩ := exists_leaves_foldl_attempt empty attempts
  have inOrder := inOrder_ofAttempts attempts
  have whole : (ofAttempts attempts).leaves =
      kept.map fun leaf => NamespacedHash.leaf leaf.1 leaf.2 := leaves
  have namespaces : (ofAttempts attempts).namespaces = kept.map Prod.fst := by
    rw [NamespacedTree.namespaces, whole, List.map_map]
    rfl
  refine ⟨kept, tried, whole, ?_⟩
  rw [← namespaces]
  exact ⟨inOrder.ordered, inOrder.reports_root nonempty,
    fun _ _ _ found => reports_subtreeRoot inOrder found⟩

/-- A tree in which a leaf was refused reports the range of the leaf in front and of the parity
behind it. -/
theorem reports_of_refused_attempt :
    let attempts := [(Namespace.lowestUser, [1]), (Namespace.zero, [2]), (Namespace.parity, [3])]
    (ofAttempts attempts).leaves ≠ [] ∧
      ∃ kept : List (Namespace × Bytes), kept.Sublist attempts ∧
        (ofAttempts attempts).leaves =
          kept.map (fun leaf => NamespacedHash.leaf leaf.1 leaf.2) ∧
        (kept.map Prod.fst).Pairwise (· ≤ ·) ∧
        Reports (ofAttempts attempts).root (kept.map Prod.fst) ∧
        ∀ start stop root, (ofAttempts attempts).subtreeRoot start stop = .ok root →
          Reports root (((kept.map Prod.fst).drop start).take (stop - start)) := by
  intro attempts
  have nonempty : (ofAttempts attempts).leaves ≠ [] := by
    obtain ⟨kept, _, leaves⟩ := exists_leaves_foldl_attempt
      (attempt empty (Namespace.lowestUser, [1])) attempts.tail
    change (attempts.tail.foldl attempt (attempt empty (Namespace.lowestUser, [1]))).leaves ≠ []
    rw [leaves]
    exact List.cons_ne_nil _ _
  exact ⟨nonempty, reports_of_attempts attempts nonempty⟩

end NamespacedTree

end DataSquare.Merkle
