import DataSquare.Mempool.Candidate
import DataSquare.Varint

/-!
# Space for candidates

How many shares candidates take, and how wide a square they need. Totals grow and shrink by the
contribution of one candidate at a time. The width leaves room for twice the shares, since the
alignment of blobs leaves gaps between them.
-/
namespace DataSquare

/-- The number of bytes of the index wrapper that a blob transaction becomes. -/
def BlobCandidate.wrappedLength (candidate : BlobCandidate) : Nat :=
  candidate.tx.length + 20 + 4 * candidate.blobs.length

/-- What candidates take. -/
structure Usage where
  /-- Bytes of ordinary transactions with their lengths. -/
  txBytes : Nat
  /-- Bytes of index wrappers with their lengths. -/
  wrapperBytes : Nat
  /-- Shares of blobs. -/
  blobShares : Nat
deriving DecidableEq

namespace Usage

/-- What no candidates take. -/
def zero : Usage := ⟨0, 0, 0⟩

/-- The number of bytes of a unit with its length in front. -/
def delimitedLength (length : Nat) : Nat := length + Varint.size length

/-- What one candidate takes. -/
def contribution : Candidate → Usage
  | .ordinary tx => ⟨delimitedLength tx.length, 0, 0⟩
  | .blob content => ⟨0, delimitedLength content.wrappedLength, content.shareCount⟩

/-- The totals with one more candidate. -/
def add (usage : Usage) (candidate : Candidate) : Usage :=
  let own := contribution candidate
  ⟨usage.txBytes + own.txBytes, usage.wrapperBytes + own.wrapperBytes,
    usage.blobShares + own.blobShares⟩

/-- The totals with one candidate less. No total falls below zero. -/
def remove (usage : Usage) (candidate : Candidate) : Usage :=
  let own := contribution candidate
  ⟨usage.txBytes - own.txBytes, usage.wrapperBytes - own.wrapperBytes,
    usage.blobShares - own.blobShares⟩

/-- The totals after each of several changes, one after the other. -/
def running (change : Usage → Candidate → Usage) : Usage → List Candidate → List Usage
  | _, [] => []
  | usage, candidate :: rest =>
    change usage candidate :: running change (change usage candidate) rest

/-- What all candidates take. -/
def ofCandidates (candidates : List Candidate) : Usage := candidates.foldl add zero

/-- Shares of ordinary transactions. -/
def txShares (usage : Usage) : Nat := compactSharesNeeded usage.txBytes

/-- Shares of index wrappers. -/
def wrapperShares (usage : Usage) : Nat := compactSharesNeeded usage.wrapperBytes

/-- Shares that no blob may take. -/
def reservedShares (usage : Usage) : Nat := usage.txShares + usage.wrapperShares

/-- All shares without padding. -/
def shares (usage : Usage) : Nat := usage.reservedShares + usage.blobShares

/-- Whether all shares go into the largest square. -/
def fits (usage : Usage) (consts : AppConsts) : Bool := usage.shares ≤ consts.maxShares

/-- Whether all shares go into the largest square, if the number of its shares fits 64 bits. -/
def fits? (usage : Usage) (consts : AppConsts) : Option Bool :=
  consts.maxShares?.map fun _ => usage.fits consts

end Usage

/-- Why there is no square for candidates. -/
inductive EstimateError where
  /-- They take more shares than the largest square has. -/
  | overCapacity (used capacity : Nat)
  /-- The least width is above the largest one. -/
  | emptyBounds (least largest : Nat)
  /-- A number on the way to the width needs more than 64 bits. -/
  | overflow
deriving DecidableEq, Repr

/-- The wording of a missing square. -/
def EstimateError.message : EstimateError → String
  | .overCapacity used capacity =>
    s!"transactions need {used} shares, the largest square holds {capacity}"
  | .emptyBounds least largest =>
    s!"min square size {least} exceeds max square size {largest}"
  | .overflow => "square size exceeds 64 bits"

instance : ToString EstimateError := ⟨EstimateError.message⟩

/-- The square that candidates are laid out in. -/
structure Estimate where
  /-- Its width. -/
  squareSize : Nat
  /-- The first share that a blob may take. -/
  nonReservedStart : Nat
deriving DecidableEq

namespace Estimate

/-- The width of the smallest square for twice some shares, if it is found within 64 bits. -/
def wantedWidth? (shares : Nat) : Option Nat := (word? (shares * 2)).bind blobMinSquareSize?

/-- The square for candidates with the given totals. -/
def ofUsage (usage : Usage) (consts : AppConsts) : Except EstimateError Estimate :=
  match usage.fits? consts with
  | none => .error .overflow
  | some false => .error (.overCapacity usage.shares consts.maxShares)
  | some true =>
    match wantedWidth? usage.shares with
    | none => .error .overflow
    | some wanted =>
      if consts.maxSquareSize < consts.minSquareSize then
        .error (.emptyBounds consts.minSquareSize consts.maxSquareSize)
      else .ok ⟨min (max wanted consts.minSquareSize) consts.maxSquareSize, usage.reservedShares⟩

/-- The square for candidates. -/
def ofCandidates (candidates : List Candidate) (consts : AppConsts) :
    Except EstimateError Estimate :=
  ofUsage (Usage.ofCandidates candidates) consts

end Estimate

end DataSquare
