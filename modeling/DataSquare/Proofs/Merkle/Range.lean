import DataSquare.Proofs.Merkle.Binding
import DataSquare.Proofs.Namespace

/-!
# The range of a root

A root reports a range of namespaces. Over leaves in the order of their namespaces it runs from the
first of these to the greatest that is not parity. Parity stands behind all other namespaces, so a
part whose least namespace is parity holds nothing else, and this is what makes the rule for the
parent of two siblings right. A namespace outside the range has no leaf below the root, unless it is
the one of parity.
-/
namespace DataSquare

namespace Namespace

/-- The lower of two namespaces in order is the first. -/
theorem lower_eq_left {left right : Namespace} (ordered : left ≤ right) :
    left.lower right = left := if_pos ordered

/-- The higher of two namespaces in order is the second. -/
theorem higher_eq_right {left right : Namespace} (ordered : left ≤ right) :
    left.higher right = right := if_pos ordered

/-- Only parity is at or above parity. -/
theorem eq_parity_of_le {ns : Namespace} (above : parity ≤ ns) : ns = parity :=
  le_antisymm (le_parity ns) above

end Namespace

namespace Merkle

/-- A node reports the range of namespaces that stand in order. -/
structure Reports (hash : NamespacedHash) (namespaces : List Namespace) : Prop where
  /-- The range starts with the first namespace. -/
  first : namespaces.head? = some hash.min
  /-- It ends with the greatest one that is not parity, if there is any. -/
  greatest : (∃ ns ∈ namespaces, ns ≠ Namespace.parity) →
    IsGreatest {ns | ns ∈ namespaces ∧ ns ≠ Namespace.parity} hash.max
  /-- If there is none it ends with parity. -/
  parity : (∀ ns ∈ namespaces, ns = Namespace.parity) → hash.max = Namespace.parity
  /-- Every namespace but parity lies in the range. -/
  contains : ∀ ns ∈ namespaces, ns ≠ Namespace.parity → hash.contains ns = true

section Reports

variable {hash left right : NamespacedHash} {namespaces front back : List Namespace}

/-- No namespace is below the first one of several in order. -/
theorem le_of_head? (ordered : namespaces.Pairwise (· ≤ ·)) {least : Namespace}
    (first : namespaces.head? = some least) {ns : Namespace} (member : ns ∈ namespaces) :
    least ≤ ns := by
  obtain ⟨rest, rfl⟩ := List.head?_eq_some_iff.mp first
  rcases List.mem_cons.mp member with rfl | later
  · exact Namespace.le_refl ns
  · exact (List.pairwise_cons.mp ordered).1 ns later

/-- Namespaces in order of which the first is parity are all parity. -/
theorem eq_parity_of_head? (ordered : namespaces.Pairwise (· ≤ ·))
    (first : namespaces.head? = some Namespace.parity) {ns : Namespace}
    (member : ns ∈ namespaces) : ns = Namespace.parity :=
  Namespace.eq_parity_of_le (le_of_head? ordered first member)

/-- A node over parity alone reports its range when both ends are parity. -/
theorem reports_of_parity (first : namespaces.head? = some hash.min)
    (ordered : namespaces.Pairwise (· ≤ ·)) (least : hash.min = Namespace.parity)
    (max : hash.max = Namespace.parity) : Reports hash namespaces where
  first := first
  greatest := fun ⟨_, member, other⟩ =>
    absurd (eq_parity_of_head? ordered (least ▸ first) member) other
  parity _ := max
  contains _ member other := absurd (eq_parity_of_head? ordered (least ▸ first) member) other

/-- A node over several namespaces in order reports their range when it starts with the first and
ends with the greatest that is not parity. -/
theorem reports_of_isGreatest (first : namespaces.head? = some hash.min)
    (ordered : namespaces.Pairwise (· ≤ ·))
    (greatest : IsGreatest {ns | ns ∈ namespaces ∧ ns ≠ Namespace.parity} hash.max) :
    Reports hash namespaces where
  first := first
  greatest _ := greatest
  parity all := all _ greatest.1.1
  contains ns member other := by
    have above : hash.min ≤ ns := le_of_head? ordered first member
    have below : ns ≤ hash.max := greatest.2 ⟨member, other⟩
    simp [NamespacedHash.contains, above, below]

/-- The first namespace of a node that reports a range is one of those below it. -/
theorem Reports.min_mem (reports : Reports hash namespaces) : hash.min ∈ namespaces :=
  List.mem_of_mem_head? reports.first

/-- The parent of two siblings reports the range of all namespaces below it when these stand in
order and each sibling reports its own. -/
theorem Reports.node (first : Reports left front) (second : Reports right back)
    (ordered : (front ++ back).Pairwise (· ≤ ·)) :
    Reports (left.node right) (front ++ back) := by
  obtain ⟨orderedFront, orderedBack, across⟩ := List.pairwise_append.mp ordered
  have mins : left.min ≤ right.min := across _ first.min_mem _ second.min_mem
  have least : (left.node right).min = left.min := Namespace.lower_eq_left mins
  have head : (front ++ back).head? = some (left.node right).min := by
    rw [List.head?_append, first.first, least]
    rfl
  by_cases leftParity : left.min = Namespace.parity
  · -- Nothing but parity stands behind the first parity.
    have max : (left.node right).max = Namespace.parity := if_pos leftParity
    exact reports_of_parity head ordered (least.trans leftParity) max
  · have own := first.greatest ⟨_, first.min_mem, leftParity⟩
    apply reports_of_isGreatest head ordered
    by_cases rightParity : right.min = Namespace.parity
    · -- The right sibling adds parity only, so the end of the left one stays.
      have max : (left.node right).max = left.max :=
        (if_neg leftParity).trans (if_pos rightParity)
      rw [max]
      constructor
      · exact ⟨List.mem_append_left back own.1.1, own.1.2⟩
      · rintro ns ⟨member, other⟩
        rcases List.mem_append.mp member with inFront | inBack
        · exact own.2 ⟨inFront, other⟩
        · have start : back.head? = some Namespace.parity := rightParity ▸ second.first
          exact absurd (eq_parity_of_head? orderedBack start inBack) other
    · -- Both siblings hold data, and that of the right one stands behind that of the left one.
      have last := second.greatest ⟨_, second.min_mem, rightParity⟩
      have max : (left.node right).max = right.max := by
        rw [NamespacedHash.node]
        dsimp only
        rw [if_neg leftParity, if_neg rightParity,
          Namespace.higher_eq_right (across _ own.1.1 _ last.1.1)]
      rw [max]
      constructor
      · exact ⟨List.mem_append_right front last.1.1, last.1.2⟩
      · rintro ns ⟨member, other⟩
        rcases List.mem_append.mp member with inFront | inBack
        · exact across ns inFront _ last.1.1
        · exact last.2 ⟨inBack, other⟩

end Reports

/-- Nodes of leaves that stand in the order of their namespaces. -/
structure InOrder (leaves : List NamespacedHash) : Prop where
  /-- Each node is that of a leaf. -/
  leaf : ∀ hash ∈ leaves, ∃ ns data, hash = NamespacedHash.leaf ns data
  /-- The namespaces do not go down. -/
  ordered : (leaves.map NamespacedHash.min).Pairwise (· ≤ ·)

/-- Some of the leaves in order are in order. -/
theorem InOrder.sublist {part all : List NamespacedHash} (inOrder : InOrder all)
    (included : part.Sublist all) : InOrder part where
  leaf hash member := inOrder.leaf hash (included.subset member)
  ordered := inOrder.ordered.sublist (included.map NamespacedHash.min)

/-- The namespaces of leaves that stand in given namespaces. -/
theorem map_min_zipWith {namespaces : List Namespace} {datas : List Bytes}
    (length : namespaces.length = datas.length) :
    (List.zipWith NamespacedHash.leaf namespaces datas).map NamespacedHash.min = namespaces := by
  rw [List.map_zipWith]
  change List.zipWith (fun ns _ => ns) namespaces datas = namespaces
  rw [← List.map_uncurry_zip_eq_zipWith]
  exact List.map_fst_zip (Nat.le_of_eq length)

/-- Leaves that stand in namespaces in order are in order. -/
theorem inOrder_zipWith {namespaces : List Namespace} {datas : List Bytes}
    (ordered : namespaces.Pairwise (· ≤ ·)) (length : namespaces.length = datas.length) :
    InOrder (List.zipWith NamespacedHash.leaf namespaces datas) where
  leaf hash member := by
    rw [← List.map_uncurry_zip_eq_zipWith, List.mem_map] at member
    obtain ⟨⟨ns, data⟩, _, same⟩ := member
    exact ⟨ns, data, same.symm⟩
  ordered := by
    rw [map_min_zipWith length]
    exact ordered

/-- The node of a leaf reports the namespace of the leaf. -/
theorem reports_leaf (ns : Namespace) (data : Bytes) :
    Reports (NamespacedHash.leaf ns data) [ns] := by
  have ordered : [ns].Pairwise (· ≤ ·) := List.pairwise_singleton _ ns
  by_cases parity : ns = Namespace.parity
  · exact reports_of_parity rfl ordered parity parity
  · apply reports_of_isGreatest rfl ordered
    constructor
    · exact ⟨List.mem_singleton_self ns, parity⟩
    · rintro other ⟨member, _⟩
      rw [List.mem_singleton.mp member]
      exact Namespace.le_refl ns

/-- The root over leaves in the order of their namespaces reports the range of these. -/
theorem InOrder.reports_root {leaves : List NamespacedHash} (inOrder : InOrder leaves)
    (nonempty : leaves ≠ []) : Reports (namespacedRoot leaves) (leaves.map NamespacedHash.min) := by
  unfold namespacedRoot
  induction leaves using splitInduction with
  | few leaves few =>
    obtain ⟨hash, rfl⟩ :=
      List.length_eq_one_iff.mp (Nat.le_antisymm few (List.length_pos_iff.mpr nonempty))
    obtain ⟨ns, data, rfl⟩ := inOrder.leaf hash (List.mem_singleton_self hash)
    rw [combine_singleton]
    exact reports_leaf ns data
  | several leaves several front back =>
    have first := front (inOrder.sublist (List.take_sublist _ _)) (take_splitPoint_ne_nil several)
    have second := back (inOrder.sublist (List.drop_sublist _ _)) (drop_splitPoint_ne_nil several)
    have whole : (leaves.take (splitPoint leaves.length)).map NamespacedHash.min ++
        (leaves.drop (splitPoint leaves.length)).map NamespacedHash.min =
          leaves.map NamespacedHash.min := by
      rw [← List.map_append, List.take_append_drop]
    rw [combine_of_one_lt several, ← whole]
    apply first.node second
    rw [whole]
    exact inOrder.ordered

end Merkle

end DataSquare
