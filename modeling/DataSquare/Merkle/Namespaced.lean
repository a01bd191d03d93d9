import DataSquare.Merkle.Binary
import DataSquare.Namespace

/-!
# Namespaced Merkle trees

A tree whose nodes carry the least and the greatest namespace below them beside the digest, over
leaves in the order of their namespaces. A root tells which namespaces a row may hold. The
namespace of parity cells is left out of the greatest one whenever there is any other, so that
roots over data and parity report the range of the data.
-/
namespace DataSquare.Merkle

/-- A node of a namespaced tree. -/
structure NamespacedHash where
  /-- The least namespace below the node. -/
  min : Namespace
  /-- The greatest namespace below the node, parity aside. -/
  max : Namespace
  /-- The digest. -/
  digest : Digest
deriving DecidableEq

/-- What is wrong with a namespaced tree or a proof in one. -/
inductive NamespacedError where
  /-- A leaf stands after one of a higher namespace. -/
  | unorderedNamespace (previous current : Namespace)
  /-- There is no such range of leaves. -/
  | invalidRange (start stop leaves : Nat)
  /-- No node spans exactly these leaves. -/
  | notASubtree (start stop : Nat)
  /-- A byte string is too short or too long for a node. -/
  | invalidHashSize (size : Nat)
  /-- A byte string does not hold the namespaces of a node. -/
  | namespaceError (cause : NamespaceError)
  /-- A proof holds too few nodes. -/
  | missingProofNode
  /-- A proof holds too many nodes. -/
  | unusedProofNodes
  /-- A proof is for another number of leaves. -/
  | leafCountMismatch (expected supplied : Nat)
  /-- A proof leads to another root. -/
  | rootMismatch
  /-- The split of the leaves does not fit 64 bits. -/
  | overflow
deriving DecidableEq, Repr

/-- The wording of an error of a namespaced tree. -/
def NamespacedError.message : NamespacedError → String
  | .unorderedNamespace previous current =>
    s!"leaf namespace {current.display} is below the previous leaf namespace {previous.display}"
  | .invalidRange start stop leaves =>
    s!"range {start}..{stop} is invalid for a tree of {leaves} leaves"
  | .notASubtree start stop => s!"range {start}..{stop} is not a subtree of the tree"
  | .invalidHashSize size => s!"namespaced hash must be 90 bytes, got {size}"
  | .namespaceError cause => cause.message
  | .missingProofNode => "proof is missing nodes"
  | .unusedProofNodes => "proof has unused nodes"
  | .leafCountMismatch expected supplied => s!"proof covers {expected} leaves, got {supplied}"
  | .rootMismatch => "proof does not lead to the expected root"
  | .overflow => "leaf count overflows"

instance : ToString NamespacedError := ⟨NamespacedError.message⟩

namespace NamespacedHash

/-- The root of a tree without leaves. -/
def empty : NamespacedHash := ⟨Namespace.zero, Namespace.zero, Sha256.digest []⟩

/-- The node of a leaf. -/
def leaf (ns : Namespace) (data : Bytes) : NamespacedHash :=
  ⟨ns, ns, Sha256.digest (0 :: ns.bytes ++ data)⟩

/-- The two namespaces and the digest, one after the other. -/
def bytes (hash : NamespacedHash) : Bytes := hash.min.bytes ++ hash.max.bytes ++ hash.digest.bytes

/-- The parent of two siblings. -/
def node (left right : NamespacedHash) : NamespacedHash where
  min := left.min.lower right.min
  max :=
    if left.min = Namespace.parity then Namespace.parity
    else if right.min = Namespace.parity then left.max
    else left.max.higher right.max
  digest := Sha256.digest (1 :: left.bytes ++ right.bytes)

/-- Reads a node from its 90 bytes. -/
def ofBytes (bytes : Bytes) : Except NamespacedError NamespacedHash :=
  if bytes.length = 90 then
    match Namespace.ofBytes (bytes.take 29) with
    | .error cause => .error (.namespaceError cause)
    | .ok min =>
      match Namespace.ofBytes ((bytes.drop 29).take 29) with
      | .error cause => .error (.namespaceError cause)
      | .ok max => .ok ⟨min, max, FixedBytes.fit 32 (bytes.drop 58)⟩
  else .error (.invalidHashSize bytes.length)

/-- Whether a namespace is in the range of a node. -/
def contains (hash : NamespacedHash) (ns : Namespace) : Bool := hash.min ≤ ns && ns ≤ hash.max

/-- The text that shows a node in diagnostics. -/
def debug (hash : NamespacedHash) : String :=
  "NamespacedHash \x7b min: " ++ hash.min.debug ++ ", max: " ++ hash.max.debug ++
    ", digest: \"" ++ Text.hex hash.digest.bytes ++ "\" \x7d"

end NamespacedHash

/-- The root over the nodes of leaves. -/
def namespacedRoot (leaves : List NamespacedHash) : NamespacedHash :=
  combine NamespacedHash.empty NamespacedHash.node leaves

/-- A proof that a run of leaves stands in a namespaced tree. -/
structure RangeProof where
  /-- The first leaf. -/
  start : UInt64
  /-- The leaf after the last. -/
  stop : UInt64
  /-- The number of leaves of the tree. -/
  total : UInt64
  /-- The roots of the largest subtrees outside the run, from left to right. -/
  nodes : List NamespacedHash
deriving DecidableEq

/-- The roots of the largest subtrees outside a run of leaves, for the part of a tree whose
leaves stand from `offset` on. -/
def outsideRoots (leaves : List NamespacedHash) (offset start stop : Nat) : List NamespacedHash :=
  if offset + leaves.length ≤ start ∨ stop ≤ offset then [namespacedRoot leaves]
  else if _h : leaves.length ≤ 1 ∨ (start ≤ offset ∧ offset + leaves.length ≤ stop) then []
  else
    let count := splitPoint leaves.length
    outsideRoots (leaves.take count) offset start stop ++
      outsideRoots (leaves.drop count) (offset + count) start stop
termination_by leaves.length
decreasing_by
  · have : splitPoint leaves.length < leaves.length := splitPoint_lt (by omega)
    simp only [List.length_take]
    omega
  · have : 0 < splitPoint leaves.length := splitPoint_pos (by omega)
    simp only [List.length_drop]
    omega

/-- The root of the part of a tree from leaf `low` up to `high`, rebuilt from the leaves of a run
and the roots outside it, with the roots that are left over. -/
def rebuildRoot (start stop : Nat) (leaves : List NamespacedHash) (low high : Nat)
    (nodes : List NamespacedHash) : Except NamespacedError (NamespacedHash × List NamespacedHash) :=
  if high ≤ start ∨ stop ≤ low then
    match nodes with
    | [] => .error .missingProofNode
    | node :: rest => .ok (node, rest)
  else if start ≤ low ∧ high ≤ stop then
    .ok (namespacedRoot ((leaves.drop (low - start)).take (high - low)), nodes)
  else if maxSplittable < high - low then .error .overflow
  else
    let count := splitPoint (high - low)
    match rebuildRoot start stop leaves low (low + count) nodes with
    | .error cause => .error cause
    | .ok (left, nodes) =>
      match rebuildRoot start stop leaves (low + count) high nodes with
      | .error cause => .error cause
      | .ok (right, nodes) => .ok (left.node right, nodes)
termination_by high - low
decreasing_by
  · have : splitPoint (high - low) < high - low := splitPoint_lt (by omega)
    omega
  · have : 0 < splitPoint (high - low) := splitPoint_pos (by omega)
    omega

namespace RangeProof

/-- The proof of the leaves from `start` up to `stop`. -/
def make (leaves : List NamespacedHash) (start stop : Nat) : RangeProof :=
  ⟨UInt64.ofNat start, UInt64.ofNat stop, UInt64.ofNat leaves.length,
    outsideRoots leaves 0 start stop⟩

/-- Checks that nodes are the leaves of the range of a proof in the tree of a root. -/
def verifyLeafHashes (proof : RangeProof) (root : NamespacedHash) (leaves : List NamespacedHash) :
    Except NamespacedError Unit :=
  let start := proof.start.toNat
  let stop := proof.stop.toNat
  let total := proof.total.toNat
  if stop ≤ start ∨ total < stop then .error (.invalidRange start stop total)
  else if leaves.length ≠ stop - start then
    .error (.leafCountMismatch (stop - start) leaves.length)
  else
    match rebuildRoot start stop leaves 0 total proof.nodes with
    | .error cause => .error cause
    | .ok (_, _ :: _) => .error .unusedProofNodes
    | .ok (computed, []) => if computed = root then .ok () else .error .rootMismatch

/-- Checks that data, all in one namespace, are the leaves of the range of a proof. -/
def verifyInclusion (proof : RangeProof) (root : NamespacedHash) (ns : Namespace)
    (data : List Bytes) : Except NamespacedError Unit :=
  proof.verifyLeafHashes root (data.map (NamespacedHash.leaf ns))

end RangeProof

/-- A namespaced tree under construction. -/
structure NamespacedTree where
  /-- The nodes of its leaves in order. -/
  leaves : List NamespacedHash
deriving DecidableEq

namespace NamespacedTree

/-- The tree without leaves. -/
def empty : NamespacedTree := ⟨[]⟩

/-- Appends a leaf, whose namespace must not be below that of the last one. -/
def push (tree : NamespacedTree) (ns : Namespace) (data : Bytes) :
    Except NamespacedError NamespacedTree :=
  let grown : NamespacedTree := ⟨tree.leaves ++ [NamespacedHash.leaf ns data]⟩
  match tree.leaves.getLast? with
  | none => .ok grown
  | some last => if ns < last.max then .error (.unorderedNamespace last.max ns) else .ok grown

/-- The root. -/
def root (tree : NamespacedTree) : NamespacedHash := namespacedRoot tree.leaves

/-- Whether a range holds at least one leaf and only leaves of the tree. -/
def checkRange (tree : NamespacedTree) (start stop : Nat) : Except NamespacedError Unit :=
  if stop ≤ start ∨ tree.leaves.length < stop then
    .error (.invalidRange start stop tree.leaves.length)
  else .ok ()

/-- The root of the node that spans exactly the leaves from `start` up to `stop`. -/
def subtreeRoot (tree : NamespacedTree) (start stop : Nat) :
    Except NamespacedError NamespacedHash := do
  tree.checkRange start stop
  let width := stop - start
  if isPowerOfTwo width && start % width == 0 && isPowerOfTwo tree.leaves.length then
    .ok (namespacedRoot ((tree.leaves.drop start).take width))
  else .error (.notASubtree start stop)

/-- The proof of the leaves from `start` up to `stop`. -/
def proveRange (tree : NamespacedTree) (start stop : Nat) : Except NamespacedError RangeProof := do
  tree.checkRange start stop
  .ok (RangeProof.make tree.leaves start stop)

end NamespacedTree

end DataSquare.Merkle
