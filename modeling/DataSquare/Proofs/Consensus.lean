import DataSquare.Consensus
import DataSquare.Proofs.Outcome
import DataSquare.Proofs.Rounding

/-!
# Bounds on the width of a square

Configured parameters are taken only with bounds that are powers of two, in order, and not above
what the erasure code extends. Everything that holds of a square of the chain rests on this.
-/
namespace DataSquare

namespace AppConsts

/-- What is known of the bounds of parameters that are taken. -/
structure Bounded (consts : AppConsts) : Prop where
  /-- The least width is a power of two. -/
  least : isPowerOfTwo consts.minSquareSize = true
  /-- The largest width is a power of two. -/
  largest : isPowerOfTwo consts.maxSquareSize = true
  /-- There is a width in between. -/
  ordered : consts.minSquareSize ≤ consts.maxSquareSize
  /-- Every width in between is extended. -/
  extended : consts.maxSquareSize ≤ squareSizeUpperBound

/-- A square may have a width that is a power of two between the bounds. -/
theorem isValidSquareSize_iff {consts : AppConsts} {squareSize : Nat} :
    consts.isValidSquareSize squareSize = true ↔ isPowerOfTwo squareSize = true ∧
      consts.minSquareSize ≤ squareSize ∧ squareSize ≤ consts.maxSquareSize := by
  simp only [isValidSquareSize, Bool.and_eq_true, decide_eq_true_eq, and_assoc]

/-- The largest square has no more shares than the code extends. -/
theorem Bounded.maxShares_le {consts : AppConsts} (bounded : consts.Bounded) :
    consts.maxShares ≤ 16384 :=
  Nat.mul_le_mul bounded.extended bounded.extended

/-- The number of shares of the largest square fits 64 bits. -/
theorem Bounded.maxShares_lt {consts : AppConsts} (bounded : consts.Bounded) :
    consts.maxShares < UInt64.size :=
  Nat.lt_of_le_of_lt bounded.maxShares_le (by decide)

end AppConsts

/-- Configured parameters are taken only with such bounds. -/
theorem ConsensusSettings.bounded_of_consts {settings : ConsensusSettings} {consts : AppConsts}
    (taken : settings.consts = .ok consts) : consts.Bounded := by
  unfold ConsensusSettings.consts at taken
  obtain ⟨least, taken⟩ := guard_eq_ok.mp taken
  obtain ⟨largest, taken⟩ := guard_eq_ok.mp taken
  obtain ⟨ordered, taken⟩ := guard_eq_ok.mp taken
  obtain ⟨extended, same⟩ := guard_eq_ok.mp taken
  obtain rfl := Except.ok.inj same
  exact ⟨Bool.not_eq_false _ ▸ least, Bool.not_eq_false _ ▸ largest, Nat.le_of_not_lt ordered,
    Nat.le_of_not_lt extended⟩

end DataSquare
