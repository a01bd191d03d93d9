import DataSquare.Inclusion.ShareProof
import DataSquare.Log.Mempool
import DataSquare.Proposal.Prepare
import DataSquare.Proposal.Process

/-!
# Events of proposals and of proofs

What a proposer reports while it prepares a proposal and a validator while it processes one, each
within a span of its own, and what is reported when a proof of shares is built. The range of shares
is read off the proof: a row of the extended square has twice as many leaves as the square has
columns. Main statement: a validator reports every state that a proposal passes.
-/
namespace DataSquare.Log

/-- The target of what a proposer reports. -/
def prepareTarget : String := target "proposal::prepare"

/-- The target of what a validator reports. -/
def processTarget : String := target "proposal::process"

/-- The events of choosing the candidates that fit the largest square. -/
def fitting (candidates : List Candidate) (policy : PriorityPolicy) (consts : AppConsts) :
    List Event :=
  match Estimate.ofCandidates candidates consts with
  | .ok _ => measuring (Usage.ofCandidates candidates) consts
  | .error _ =>
    pruning candidates policy consts ++
      match Eviction.prune candidates policy consts with
      | .ok _ => []
      | .error cause =>
        ⟨.error, prepareTarget, "dropping blob transactions and the lowest priority ordinary ones",
          [.text "err" cause.message], none⟩ :: pruningOrdinary candidates policy consts

/-- The events of what comes of a proposal. -/
def concluding : Except ProposalError PreparedProposal → List Event
  | .ok proposal =>
    [⟨.info, prepareTarget, "prepared proposal",
      [.number "square_size" proposal.data.squareSize.toNat,
        .number "txs" proposal.data.txs.length, .number "blobs" proposal.data.blobs.length,
        .text "data_hash" (Text.identifier proposal.dataHash.bytes)], none⟩]
  | .error cause =>
    if cause.isFatal then
      [⟨.error, prepareTarget, "could not build a square from our own layout",
        [.text "err" cause.message], none⟩]
    else []

/-- The events of making a proposal of candidates that fit. -/
def proposing (candidates : List Candidate) (consts : AppConsts) : List Event :=
  measuring (Usage.ofCandidates candidates) consts ++
    (match Estimate.ofCandidates candidates consts with
    | .ok estimate => placing estimate.squareSize estimate.nonReservedStart candidates
    | .error _ => []) ++
    concluding (PreparedProposal.ofCandidates candidates consts)

/-- The span within which a proposal is prepared. -/
def prepareSpan (raws : List Bytes) : Span :=
  ⟨.debug, prepareTarget, "prepare_proposal", [.number "txs" raws.length]⟩

/-- The events of preparing a proposal. -/
def preparing (raws : List Bytes) (policy : PriorityPolicy) (consts : AppConsts) : List Event :=
  let candidates := Candidate.collect raws consts
  (collecting raws consts ++ fitting candidates policy consts ++
    proposing (PreparedProposal.fit candidates policy consts) consts).map
    fun event => event.within (prepareSpan raws)

/-- The proposer of a block. -/
def proposerField (block : Block) : Field :=
  .text "proposer" (Text.identifier block.header.proposer.bytes)

/-- The height of a block. -/
def heightField (block : Block) : Field := .number "height" block.header.height.toNat

/-- The event of a state that is passed. -/
def advancing (state : ProposalState) : Event :=
  ⟨.debug, processTarget, "proposal advanced", [.text "state" state.name], none⟩

/-- The events of a refusal. -/
def refusing (block : Block) : ProcessOutcome → List Event
  | .accepted => []
  | .rejected state reason =>
    [⟨.error, processTarget, "rejected proposal block",
      [.text "reason" reason.message, .text "state" state.name, proposerField block,
        heightField block], none⟩]

/-- The states that are passed on the way to a state, with that state itself. -/
def statesUpTo (last : ProposalState) : List ProposalState :=
  ProposalState.inOrder.tail.take (ProposalState.inOrder.idxOf last)

/-- The span within which a proposal is processed. -/
def processSpan (block : Block) : Span :=
  ⟨.debug, processTarget, "process_proposal", [heightField block, proposerField block]⟩

/-- The events of processing a proposal. -/
def processing (block : Block) (consts : AppConsts) : List Event :=
  let outcome := processProposal block consts
  ((statesUpTo outcome.state).map advancing ++ refusing block outcome).map
    fun event => event.within (processSpan block)

/-- The last state passed is the furthest one, unless it is the one in which a proposal arrives. -/
theorem getLast?_statesUpTo (last : ProposalState) :
    (statesUpTo last).getLast? = if last = .received then none else some last := by
  cases last <;> decide

/-- The first share that a proof covers. -/
def firstShare (proof : ShareProof) : Nat :=
  match proof.shareProofs with
  | [] => 0
  | first :: _ => proof.rowProof.startRow.toNat * (first.total.toNat / 2) + first.start.toNat

/-- The event of building a proof. -/
def proving (proof : ShareProof) : Event :=
  ⟨.debug, target "prove", "built share inclusion proof",
    [.number "start" (firstShare proof), .number "end" (firstShare proof + proof.data.length),
      .number "rows" proof.rowProof.rowRoots.length], none⟩

end DataSquare.Log
