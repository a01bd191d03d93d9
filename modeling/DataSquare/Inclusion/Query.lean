import DataSquare.Inclusion.ShareProof
import DataSquare.Text.Basic
import DataSquare.Text.Visible
import DataSquare.Wire.Message
import DataSquare.Wire.Proof

/-!
# Queries

A light client asks for a proof by a path: `txInclusionProof/<index>` for a transaction, or
`shareInclusionProof/<start>/<end>` for a range of shares. The answer is the encoded proof from an
encoded block. Slashes around a path do not count.
-/
namespace DataSquare

/-- Why a query has no answer. -/
inductive QueryError where
  /-- No route has this path. -/
  | unknownPath (path : String)
  /-- A route has another number of arguments. -/
  | pathLength (expected actual : Nat)
  /-- An argument is no number. -/
  | invalidIndex (cause : Text.DecimalFault)
  /-- The block does not decode. -/
  | block (cause : WireError)
  /-- There is no proof. -/
  | prove (cause : ProveError)
  /-- The proof is not written. -/
  | encode (cause : WireError)
deriving DecidableEq, Repr

/-- The wording of a query without an answer. -/
def QueryError.message : QueryError → String
  | .unknownPath path => s!"unknown query path {Text.quoted path}"
  | .pathLength expected actual => s!"expected query path length: {expected} actual: {actual}"
  | .invalidIndex cause => cause.message
  | .block cause => s!"error reading block: {cause.message}"
  | .prove cause => cause.message
  | .encode cause => cause.message

instance : ToString QueryError := ⟨QueryError.message⟩

namespace Query

/-- The parts of a path between its slashes, of which there is always one. -/
def segments : List Char → List (List Char)
  | [] => [[]]
  | char :: rest =>
    if char = '/' then [] :: segments rest
    else
      match segments rest with
      | [] => [[char]]
      | first :: later => (char :: first) :: later

/-- A path without the slashes around it. -/
def trim (path : List Char) : List Char :=
  (((path.dropWhile (· = '/')).reverse).dropWhile (· = '/')).reverse

/-- The route of proofs of transactions. -/
def txRoute : List Char := "txInclusionProof".toList

/-- The route of proofs of shares. -/
def shareRoute : List Char := "shareInclusionProof".toList

/-- Reads an argument as a number. -/
def index (argument : List Char) : Except QueryError Nat :=
  (Text.readDecimal argument).mapError .invalidIndex

/-- Reads a block. -/
def readBlock (raw : Bytes) : Except QueryError Block :=
  (Wire.deserialize Format.block raw).mapError .block

/-- Writes a proof. -/
def writeProof (proof : ShareProof) : Except QueryError Bytes :=
  (Wire.serialize Format.shareProof proof).mapError .encode

/-- The proof of a transaction of a block. -/
def tx (arguments : List (List Char)) (raw : Bytes) : Except QueryError Bytes :=
  match arguments with
  | [argument] => do
    let index ← index argument
    let block ← readBlock raw
    let proof ← (ShareProof.ofTx block.data index).mapError .prove
    writeProof proof
  | _ => .error (.pathLength 1 arguments.length)

/-- The proof of a range of shares of a block. -/
def shares (arguments : List (List Char)) (raw : Bytes) : Except QueryError Bytes :=
  match arguments with
  | [first, last] => do
    let start ← index first
    let stop ← index last
    let block ← readBlock raw
    let shares ← block.data.square.mapError fun cause => .prove (.split cause)
    let proof ← (ShareProof.make shares start stop).mapError .prove
    writeProof proof
  | _ => .error (.pathLength 2 arguments.length)

/-- The answer to a path for an encoded block. -/
def answer (path : String) (raw : Bytes) : Except QueryError Bytes :=
  match segments (trim path.toList) with
  | route :: arguments =>
    if route = txRoute then tx arguments raw
    else if route = shareRoute then shares arguments raw
    else .error (.unknownPath path)
  | [] => .error (.unknownPath path)

end Query

end DataSquare
