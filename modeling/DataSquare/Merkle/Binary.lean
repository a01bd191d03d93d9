import DataSquare.Hash.Sha256
import DataSquare.Merkle.Tree

/-!
# Plain Merkle trees

The tree over byte strings that commits to the subtree roots of a blob and to the row and column
roots of a header. A leaf is hashed after a zero byte and an inner node after a one byte, so that
neither stands for the other. A proof names the leaf it is for and the number of leaves, and is
accepted only when its siblings stand on exactly the sides these two prescribe.
-/
namespace DataSquare.Merkle

/-- What is wrong with a proof in a plain tree. -/
inductive ProofError where
  /-- There is no such leaf. -/
  | indexOutOfBounds (index total : Nat)
  /-- The siblings do not stand where those of this leaf do. -/
  | pathShapeMismatch (index total : Nat)
  /-- The siblings lead to another root. -/
  | rootMismatch
  /-- The split of the leaves does not fit 64 bits. -/
  | overflow
deriving DecidableEq, Repr

/-- The wording of a proof error. -/
def ProofError.message : ProofError → String
  | .indexOutOfBounds index total => s!"leaf index {index} out of bounds for {total} leaves"
  | .pathShapeMismatch index total =>
    s!"proof path does not belong to leaf {index} of {total}"
  | .rootMismatch => "proof does not lead to the expected root"
  | .overflow => "leaf count overflows"

instance : ToString ProofError := ⟨ProofError.message⟩

namespace Binary

/-- The root of no leaves. -/
def emptyRoot : Digest := Sha256.digest []

/-- The hash of a leaf. -/
def leaf (item : Bytes) : Digest := Sha256.digest (0 :: item)

/-- The hash of an inner node. -/
def node (left right : Digest) : Digest := Sha256.digest (1 :: left.bytes ++ right.bytes)

/-- The root over byte strings. -/
def root (items : List Bytes) : Digest := combine emptyRoot node (items.map leaf)

/-- The siblings from an item up to the root, if there is such an item. -/
def path (items : List Bytes) (index : Nat) : Except ProofError (List (Sibling Digest)) :=
  if index < items.length then .ok (siblings emptyRoot node (items.map leaf) index)
  else .error (.indexOutOfBounds index items.length)

/-- The root that siblings lead to from the hash of a leaf. -/
def pathRoot (leaf : Digest) (path : List (Sibling Digest)) : Digest := follow node leaf path

/-- A proof that an item stands in a plain tree. -/
structure Proof where
  /-- The position of the item. -/
  index : UInt64
  /-- The number of items. -/
  total : UInt64
  /-- The siblings from the item up to the root. -/
  path : List (Sibling Digest)
deriving DecidableEq

namespace Proof

/-- The proof of one of the items of a tree. -/
def make (items : List Bytes) (index : Nat) : Except ProofError Proof :=
  (Binary.path items index).map fun path =>
    ⟨UInt64.ofNat index, UInt64.ofNat items.length, path⟩

/-- Checks that an item stands at the position of the proof in the tree of a root. -/
def verify (proof : Proof) (root : Digest) (item : Bytes) : Except ProofError Unit :=
  let index := proof.index.toNat
  let total := proof.total.toNat
  if total ≤ index then .error (.indexOutOfBounds index total)
  else if maxSplittable < total then .error .overflow
  else if proof.path.map Sibling.side ≠ sides index total then
    .error (.pathShapeMismatch index total)
  else if pathRoot (leaf item) proof.path ≠ root then .error .rootMismatch
  else .ok ()

end Proof

end Binary

end DataSquare.Merkle
