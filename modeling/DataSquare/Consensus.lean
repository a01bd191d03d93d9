import DataSquare.PowerOfTwo

/-!
# Consensus parameters

The parameters that every node has to agree on, with the values of each version of the protocol.
An operator narrows the bounds on the width of the square; the erasure code works on at most 256
cells along an axis, so no square is wider than 128 before extension.
-/
namespace DataSquare

/-- A version of the protocol. -/
inductive AppVersion where
  /-- The first version. -/
  | v1
  /-- The third version. -/
  | v3
deriving DecidableEq

namespace AppVersion

/-- The number of a version. -/
def number : AppVersion → Nat
  | .v1 => 1
  | .v3 => 3

/-- The version with the given number. -/
def ofNumber? : Nat → Option AppVersion
  | 1 => some .v1
  | 3 => some .v3
  | _ => none

end AppVersion

/-- The parameters of consensus. -/
structure AppConsts where
  /-- The version they belong to. -/
  version : AppVersion
  /-- The least width of a square. -/
  minSquareSize : Nat
  /-- The largest width of a square. -/
  maxSquareSize : Nat
  /-- The number of subtrees from which on the commitment to a blob uses wider ones. -/
  subtreeRootThreshold : Nat
  /-- The gas charged for a byte of a blob. -/
  gasPerBlobByte : UInt32
  /-- The largest number of bytes of a transaction, if there is a bound. -/
  maxTxBytes : Option Nat
deriving DecidableEq

/-- The parameters of a version. -/
def AppVersion.consts : AppVersion → AppConsts
  | .v1 => ⟨.v1, 1, 128, 64, 8, none⟩
  | .v3 => ⟨.v3, 1, 128, 64, 8, some 2097152⟩

namespace AppConsts

/-- The number of shares of the largest square. -/
def maxShares (consts : AppConsts) : Nat := consts.maxSquareSize * consts.maxSquareSize

/-- The number of shares of the largest square, if it fits 64 bits. -/
def maxShares? (consts : AppConsts) : Option Nat := word? consts.maxShares

/-- Whether a square may have the given width. -/
def isValidSquareSize (consts : AppConsts) (squareSize : Nat) : Bool :=
  isPowerOfTwo squareSize && decide (consts.minSquareSize ≤ squareSize) &&
    decide (squareSize ≤ consts.maxSquareSize)

end AppConsts

/-- The largest width of a square that the erasure code extends. -/
abbrev squareSizeUpperBound : Nat := 128

/-- What an operator configures of the consensus parameters. -/
structure ConsensusSettings where
  /-- The version of the protocol. -/
  appVersion : AppVersion
  /-- The least width of a square. -/
  minSquareSize : Nat
  /-- The largest width of a square. -/
  maxSquareSize : Nat
deriving DecidableEq

/-- Why configured bounds are refused. -/
inductive BoundsError where
  /-- A bound is no power of two. -/
  | notPowerOfTwo (size : Nat)
  /-- The lower bound is above the upper one. -/
  | invertedBounds (least largest : Nat)
  /-- The upper bound is more than can be extended. -/
  | tooLarge (size : Nat)
deriving DecidableEq, Repr

/-- The wording of refused bounds. -/
def BoundsError.message : BoundsError → String
  | .notPowerOfTwo size => s!"square size {size} is not a power of two"
  | .invertedBounds least largest =>
    s!"min square size {least} exceeds max square size {largest}"
  | .tooLarge size => s!"max square size {size} exceeds {squareSizeUpperBound}"

instance : ToString BoundsError := ⟨BoundsError.message⟩

namespace ConsensusSettings

/-- The latest version with its own bounds. -/
def default : ConsensusSettings :=
  ⟨.v3, AppVersion.v3.consts.minSquareSize, AppVersion.v3.consts.maxSquareSize⟩

/-- The parameters of the version with the configured bounds. -/
def consts (settings : ConsensusSettings) : Except BoundsError AppConsts :=
  if isPowerOfTwo settings.minSquareSize = false then
    .error (.notPowerOfTwo settings.minSquareSize)
  else if isPowerOfTwo settings.maxSquareSize = false then
    .error (.notPowerOfTwo settings.maxSquareSize)
  else if settings.maxSquareSize < settings.minSquareSize then
    .error (.invertedBounds settings.minSquareSize settings.maxSquareSize)
  else if squareSizeUpperBound < settings.maxSquareSize then
    .error (.tooLarge settings.maxSquareSize)
  else .ok { settings.appVersion.consts with
    minSquareSize := settings.minSquareSize
    maxSquareSize := settings.maxSquareSize }

end ConsensusSettings

end DataSquare
