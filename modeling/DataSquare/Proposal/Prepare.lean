import DataSquare.Proposal.Basic
import DataSquare.Square.Layout

/-!
# Preparing a proposal

A proposer takes the candidates that fit, lays them out and publishes the contents of the block
with the root of its square. The square is built from those contents alone, the way every other
node rebuilds it.
-/
namespace DataSquare

namespace PreparedProposal

/-- The candidates that fit the largest square. When the number of its shares needs more than 64
bits, no candidates do, and then there is no estimate either. -/
def fit (candidates : List Candidate) (policy : PriorityPolicy) (consts : AppConsts) :
    List Candidate :=
  match Estimate.ofCandidates candidates consts with
  | .ok _ => candidates
  | .error _ =>
    match Eviction.prune candidates policy consts with
    | .ok kept => kept
    | .error _ => (Eviction.pruneOrdinary candidates policy consts).toOption.getD []

/-- The proposal with the given contents of a block. -/
def ofBlockData (data : BlockData) : Except InvariantError PreparedProposal :=
  match data.square with
  | .error cause => .error (.split cause)
  | .ok shares =>
    match AvailabilityHeader.ofShares shares with
    | .error cause => .error (.header cause)
    | .ok (header, _) => .ok ⟨data, header, header.hash⟩

/-- The proposal of a layout. -/
def ofLayout (layout : Layout) : Except ProposalError PreparedProposal :=
  match layout.blockData with
  | .error cause => .error (.envelope cause)
  | .ok data => (ofBlockData data).mapError .invariant

/-- The proposal for candidates that fit. -/
def ofCandidates (candidates : List Candidate) (consts : AppConsts) :
    Except ProposalError PreparedProposal :=
  match Estimate.ofCandidates candidates consts with
  | .error cause => .error (.estimate cause)
  | .ok estimate =>
    match Layout.finalize? estimate.squareSize estimate.nonReservedStart candidates with
    | none => .error (.invariant .noLayout)
    | some layout => ofLayout layout

end PreparedProposal

/-- The proposal for submitted transactions in the order of their arrival. -/
def prepareProposal (raws : List Bytes) (policy : PriorityPolicy) (consts : AppConsts) :
    Except ProposalError PreparedProposal :=
  PreparedProposal.ofCandidates
    (PreparedProposal.fit (Candidate.collect raws consts) policy consts) consts

end DataSquare
