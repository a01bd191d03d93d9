import DataSquare.PowerOfTwo

/-!
# The shape of a Merkle tree

A tree over a list of leaves is never stored. It is the recursion that splits the list at the
largest power of two below its length, and every tree of the square is this recursion over its
own kind of hash. Here are its root, the siblings that lead from a leaf to the root, and the
sides on which they stand.
-/
namespace DataSquare.Merkle

/-- More leaves than this have no split that fits 64 bits. -/
abbrev maxSplittable : Nat := UInt64.size / 2

variable {α : Type}

/-- The root over leaves, given the root of no leaves and the parent of two siblings. -/
def combine (empty : α) (node : α → α → α) (leaves : List α) : α :=
  if _h : leaves.length ≤ 1 then leaves.headD empty
  else
    let count := splitPoint leaves.length
    node (combine empty node (leaves.take count)) (combine empty node (leaves.drop count))
termination_by leaves.length
decreasing_by
  · have : splitPoint leaves.length < leaves.length := splitPoint_lt (by omega)
    simp only [List.length_take]
    omega
  · have : 0 < splitPoint leaves.length := splitPoint_pos (by omega)
    simp only [List.length_drop]
    omega

/-- A sibling on the way to the root, on its side. -/
inductive Sibling (α : Type) where
  /-- The sibling stands on the left. -/
  | left (hash : α)
  /-- The sibling stands on the right. -/
  | right (hash : α)
deriving DecidableEq

/-- The side of a sibling. -/
inductive Side where
  /-- On the left. -/
  | left
  /-- On the right. -/
  | right
deriving DecidableEq

namespace Sibling

/-- The side on which a sibling stands. -/
def side : Sibling α → Side
  | .left _ => .left
  | .right _ => .right

/-- The hash of a sibling. -/
def hash : Sibling α → α
  | .left hash => hash
  | .right hash => hash

end Sibling

/-- The siblings from the leaf at `index` up to the root. -/
def siblings (empty : α) (node : α → α → α) (leaves : List α) (index : Nat) : List (Sibling α) :=
  if _h : leaves.length ≤ 1 then []
  else
    let count := splitPoint leaves.length
    if index < count then
      siblings empty node (leaves.take count) index ++
        [.right (combine empty node (leaves.drop count))]
    else
      siblings empty node (leaves.drop count) (index - count) ++
        [.left (combine empty node (leaves.take count))]
termination_by leaves.length
decreasing_by
  · have : splitPoint leaves.length < leaves.length := splitPoint_lt (by omega)
    simp only [List.length_take]
    omega
  · have : 0 < splitPoint leaves.length := splitPoint_pos (by omega)
    simp only [List.length_drop]
    omega

/-- The sides on which the siblings stand from the leaf at `index` among `total` leaves up to the
root. -/
def sides (index total : Nat) : List Side :=
  if _h : total ≤ 1 then []
  else
    let count := splitPoint total
    if index < count then sides index count ++ [.right]
    else sides (index - count) (total - count) ++ [.left]
termination_by total
decreasing_by
  · exact splitPoint_lt (by omega)
  · have : 0 < splitPoint total := splitPoint_pos (by omega)
    omega

/-- The root that siblings lead to from a leaf. -/
def follow (node : α → α → α) (leaf : α) (path : List (Sibling α)) : α :=
  path.foldl (fun below sibling =>
    match sibling with
    | .left hash => node hash below
    | .right hash => node below hash) leaf

end DataSquare.Merkle
