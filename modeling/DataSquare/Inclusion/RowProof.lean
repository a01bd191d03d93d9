import DataSquare.Square.Split
import DataSquare.Square.Header

/-!
# Proofs of rows

A header lists the row roots first and then as many column roots. A row proof shows that roots
are those of consecutive rows of the header with a given hash. It is refused when a root stands
at another position of the header, or outside the half that holds the rows.
-/
namespace DataSquare

open Merkle

/-- Why shares are not proven, or a proof is refused. -/
inductive ProveError where
  /-- The contents make no square. -/
  | split (cause : SplitError)
  /-- The square has no header. -/
  | header (cause : HeaderError)
  /-- A row has no such shares. -/
  | row (cause : NamespacedError)
  /-- The header has no such root. -/
  | root (cause : ProofError)
  /-- There is no such range of shares. -/
  | invalidRange (start stop shares : Nat)
  /-- The range holds shares of two namespaces. -/
  | mixedNamespaces (first other : Namespace) (index : Nat)
  /-- There is no such transaction. -/
  | txOutOfBounds (index txs : Nat)
  /-- The parts of a proof do not have one length. -/
  | malformedProof (rows proofs roots : Nat)
  /-- The header has no such rows. -/
  | rowsOutOfRange (startRow endRow leaves : Nat)
  /-- The proof of a row is for another one. -/
  | rowIndexMismatch (expected actual : Nat)
  /-- The number of rows does not fit 64 bits. -/
  | overflow
deriving DecidableEq, Repr

/-- The wording of a prove error. -/
def ProveError.message : ProveError → String
  | .split cause => cause.message
  | .header cause => cause.message
  | .row cause => cause.message
  | .root cause => cause.message
  | .invalidRange start stop shares =>
    s!"share range {start}..{stop} is invalid for {shares} shares"
  | .mixedNamespaces first other index =>
    s!"shares range contains different namespaces: {first.display} and {other.display} " ++
      s!"at share {index}"
  | .txOutOfBounds index txs =>
    s!"transaction index {index} out of bounds for {txs} transactions"
  | .malformedProof rows proofs roots =>
    s!"proof covers {rows} rows but carries {proofs} row proofs and {roots} row roots"
  | .rowsOutOfRange startRow endRow leaves =>
    s!"rows {startRow}..={endRow} are not rows of a header with {leaves} roots"
  | .rowIndexMismatch expected actual => s!"proof for row {expected} is labelled {actual}"
  | .overflow => "row count overflows"

instance : ToString ProveError := ⟨ProveError.message⟩

/-- A proof that roots are those of consecutive rows. -/
structure RowProof where
  /-- The roots of the rows. -/
  rowRoots : List NamespacedHash
  /-- For each root the proof that it stands in the header. -/
  proofs : List Binary.Proof
  /-- The first row. -/
  startRow : UInt64
  /-- The last row. -/
  endRow : UInt64
deriving DecidableEq

namespace RowProof

/-- Checks that roots are those of the rows from `row` on, in the header of a hash that lists
`leaves` roots. -/
def checkRows (dataRoot : Digest) (leaves : UInt64) :
    Nat → List (NamespacedHash × Binary.Proof) → Except ProveError Unit
  | _, [] => .ok ()
  | row, (root, proof) :: rest =>
    if proof.index.toNat ≠ row ∨ proof.total ≠ leaves then
      .error (.rowIndexMismatch row proof.index.toNat)
    else
      match proof.verify dataRoot root.bytes with
      | .error cause => .error (.root cause)
      | .ok () => checkRows dataRoot leaves (row + 1) rest

/-- Checks that the roots are those of the rows of the proof in the header of a hash. -/
def verify (proof : RowProof) (dataRoot : Digest) : Except ProveError Unit :=
  let startRow := proof.startRow.toNat
  let endRow := proof.endRow.toNat
  if UInt64.size ≤ endRow + 1 then .error .overflow
  else
    let rows := endRow + 1 - startRow
    if proof.rowRoots.length ≠ rows ∨ proof.proofs.length ≠ rows then
      .error (.malformedProof rows proof.proofs.length proof.rowRoots.length)
    else
      let leaves := (proof.proofs.head?.map Binary.Proof.total).getD 0
      if endRow < startRow ∨ isPowerOfTwo leaves.toNat = false ∨ leaves.toNat / 2 ≤ endRow then
        .error (.rowsOutOfRange startRow endRow leaves.toNat)
      else checkRows dataRoot leaves startRow (proof.rowRoots.zip proof.proofs)

end RowProof

end DataSquare
