import DataSquare.Inclusion.ShareProof
import DataSquare.Wire.Format

/-!
# Encoded headers and proofs

The formats of what light clients receive.
-/
namespace DataSquare.Format

open Merkle

/-- A node of a namespaced tree. -/
def namespacedHash : Format NamespacedHash :=
  (pair ns (pair ns (fixed 32))).map
    (fun (min, max, digest) => ⟨min, max, digest⟩)
    (fun value => (value.min, value.max, value.digest))

/-- A sibling in a plain tree. -/
def sibling : Format (Sibling Digest) :=
  (either (fixed 32) (fixed 32)).map
    (fun
      | .inl hash => .left hash
      | .inr hash => .right hash)
    (fun
      | .left hash => .inl hash
      | .right hash => .inr hash)

/-- A proof in a plain tree. -/
def proof : Format Binary.Proof :=
  (pair word64 (pair word64 (list sibling))).map
    (fun (index, total, path) => ⟨index, total, path⟩)
    (fun value => (value.index, value.total, value.path))

/-- A proof of a run of leaves. -/
def rangeProof : Format RangeProof :=
  (pair word64 (pair word64 (pair word64 (list namespacedHash)))).map
    (fun (start, stop, total, nodes) => ⟨start, stop, total, nodes⟩)
    (fun value => (value.start, value.stop, value.total, value.nodes))

/-- A header. -/
def availabilityHeader : Format AvailabilityHeader :=
  (pair (list namespacedHash) (list namespacedHash)).map
    (fun (rows, columns) => ⟨rows, columns⟩)
    (fun value => (value.rowRoots, value.columnRoots))

/-- A proof of rows. -/
def rowProof : Format RowProof :=
  (pair (list namespacedHash) (pair (list proof) (pair word64 word64))).map
    (fun (roots, proofs, startRow, endRow) => ⟨roots, proofs, startRow, endRow⟩)
    (fun value => (value.rowRoots, value.proofs, value.startRow, value.endRow))

/-- A proof of shares. -/
def shareProof : Format ShareProof :=
  (pair (list byteString) (pair ns (pair (list rangeProof) rowProof))).map
    (fun (data, ns, shareProofs, rowProof) => ⟨data, ns, shareProofs, rowProof⟩)
    (fun value => (value.data, value.ns, value.shareProofs, value.rowProof))

end DataSquare.Format
