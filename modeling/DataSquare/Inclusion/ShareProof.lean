import DataSquare.Inclusion.RowProof

/-!
# Proofs of shares

A share proof shows that data are consecutive shares of one namespace in the square behind a
hash: for every row that they touch it proves the row root in the header and the shares in the
row.
-/
namespace DataSquare

open Merkle

/-- A proof that data are consecutive shares of one namespace. -/
structure ShareProof where
  /-- The bytes of each share. -/
  data : List Bytes
  /-- The namespace of the shares. -/
  ns : Namespace
  /-- For each row the proof of the shares in it. -/
  shareProofs : List RangeProof
  /-- The proof of the rows. -/
  rowProof : RowProof
deriving DecidableEq

namespace ShareProof

/-- Checks data against the proofs of rows, one row after the other, until nothing is left. -/
def checkShares (ns : Namespace) :
    List (RangeProof × NamespacedHash) → List Bytes → Except ProveError Unit
  | [], [] => .ok ()
  | [], _ :: _ => .error (.row .unusedProofNodes)
  | (proof, root) :: rest, data =>
    let count := proof.stop.toNat - proof.start.toNat
    if data.length < count then .error (.row (.leafCountMismatch count data.length))
    else
      match proof.verifyInclusion root ns (data.take count) with
      | .error cause => .error (.row cause)
      | .ok () => checkShares ns rest (data.drop count)

/-- Checks that the data are shares of the square behind a hash. -/
def verify (proof : ShareProof) (dataRoot : Digest) : Except ProveError Unit :=
  match proof.rowProof.verify dataRoot with
  | .error cause => .error cause
  | .ok () =>
    if proof.shareProofs.length ≠ proof.rowProof.rowRoots.length then
      .error (.malformedProof proof.shareProofs.length proof.rowProof.proofs.length
        proof.rowProof.rowRoots.length)
    else checkShares proof.ns (proof.shareProofs.zip proof.rowProof.rowRoots) proof.data

/-- The namespace of a share of a square. -/
def shareNamespace (share : Share) : Except ProveError Namespace :=
  share.ns.mapError fun cause => .split (.share (.namespaceError cause))

/-- Whether shares from a position on are in one namespace. -/
def checkNamespace (first : Namespace) (position : Nat) : List Share → Except ProveError Unit
  | [] => .ok ()
  | share :: rest =>
    match shareNamespace share with
    | .error cause => .error cause
    | .ok other =>
      if other ≠ first then .error (.mixedNamespaces first other position)
      else checkNamespace first (position + 1) rest

/-- The namespace of a range of shares, which must hold a share and only shares of one
namespace. -/
def rangeNamespace (shares : List Share) (start stop : Nat) : Except ProveError Namespace :=
  let invalid := ProveError.invalidRange start stop shares.length
  if stop ≤ start ∨ shares.length < stop then .error invalid
  else
    match (shares.drop start).take (stop - start) with
    | [] => .error invalid
    | first :: rest =>
      match shareNamespace first with
      | .error cause => .error cause
      | .ok ns =>
        match checkNamespace ns (start + 1) rest with
        | .error cause => .error cause
        | .ok () => .ok ns

/-- What is proven about one row. -/
structure RowPart where
  /-- The proof of the shares in the row. -/
  shareProof : RangeProof
  /-- The root of the row. -/
  root : NamespacedHash
  /-- The proof of the root in the header. -/
  proof : Binary.Proof

/-- The part of a proof for one row. -/
def rowPart (header : AvailabilityHeader) (trees : RowTrees) (start stop row : Nat) :
    Except ProveError RowPart :=
  let rowStart := row * header.squareSize
  let first := max start rowStart - rowStart
  let last := min stop (rowStart + header.squareSize) - rowStart
  let missing := Except.error (.row .missingProofNode)
  match header.rowRoots[row]? with
  | none => missing
  | some root =>
    match trees.find? root with
    | none => missing
    | some tree =>
      match tree.proveRange first last with
      | .error cause => .error (.row cause)
      | .ok shareProof =>
        match Binary.Proof.make header.leaves row with
        | .error cause => .error (.root cause)
        | .ok proof => .ok ⟨shareProof, root, proof⟩

/-- The proof of a range of shares of a square, which must be in one namespace. -/
def make (shares : List Share) (start stop : Nat) : Except ProveError ShareProof := do
  let ns ← rangeNamespace shares start stop
  let (header, trees) ← (AvailabilityHeader.ofShares shares).mapError .header
  let startRow := start / header.squareSize
  let endRow := (stop - 1) / header.squareSize
  let parts ← (List.range' startRow (endRow + 1 - startRow)).mapM
    (rowPart header trees start stop)
  .ok {
    data := ((shares.drop start).take (stop - start)).map Share.bytes
    ns
    shareProofs := parts.map RowPart.shareProof
    rowProof := ⟨parts.map RowPart.root, parts.map RowPart.proof, UInt64.ofNat startRow,
      UInt64.ofNat endRow⟩ }

/-- The range of shares that holds a transaction of a block. -/
def txRange (txs : List Bytes) (txShares : TxShares) (index : Nat) : Option Compact.ShareRange :=
  match txs[index]? with
  | none => none
  | some raw =>
    let wrapped := IndexWrapper.isMarked raw
    let position := (txs.take index).countP fun tx => IndexWrapper.isMarked tx == wrapped
    if wrapped then
      let offset := txShares.ordinary.shares.length
      txShares.wrapped.unitRanges[position]?.map fun range =>
        ⟨offset + range.start, offset + range.stop⟩
    else txShares.ordinary.unitRanges[position]?

/-- The proof of the shares that hold a transaction of a block. -/
def ofTx (data : BlockData) (index : Nat) : Except ProveError ShareProof :=
  let missing := ProveError.txOutOfBounds index data.txs.length
  if data.txs.length ≤ index then .error missing
  else
    match TxShares.ofTxs data.txs with
    | .error cause => .error (.split cause)
    | .ok txShares =>
      match txRange data.txs txShares index with
      | none => .error missing
      | some range =>
        match data.square with
        | .error cause => .error (.split cause)
        | .ok shares => make shares range.start range.stop

end ShareProof

end DataSquare
