import DataSquare.Bytes
import DataSquare.Erasure.Gf256

/-!
# The erasure code of an axis

A code of as many parity chunks as data chunks. At every position the bytes of the chunks are
the values of one polynomial of degree below the number of data chunks, at the field points
numbered like the chunks. Data chunks are the first values, parity chunks the ones after them,
and as many chunks as there are data chunks, whichever they are, fix all the others.
-/
namespace DataSquare.Erasure

/-- Why chunks are not encoded or decoded. -/
inductive CodecError where
  /-- There is no data chunk. -/
  | tooFewDataChunks
  /-- There are more chunks than field points. -/
  | tooManyChunks
  /-- A chunk is missing with fewer present than there are data chunks. -/
  | tooFewPresent
  /-- The first chunk has no bytes. -/
  | emptyChunk
  /-- The chunks do not have one length. -/
  | unevenChunks
deriving DecidableEq, Repr

/-- The wording of a codec error. -/
def CodecError.message : CodecError → String
  | .tooFewDataChunks =>
    "codec error: The number of provided data shards is smaller than the one in codec"
  | .tooManyChunks =>
    "codec error: The number of provided shards is greater than the one in codec"
  | .tooFewPresent =>
    "codec error: The number of shards present is smaller than number of parity shards, " ++
      "cannot reconstruct missing shards"
  | .emptyChunk => "codec error: The first shard provided is of zero length"
  | .unevenChunks => "codec error: At least one of the provided shards is not of the correct size"

instance : ToString CodecError := ⟨CodecError.message⟩

/-- The most chunks of an axis, data and parity together. -/
abbrev maxChunks : Nat := 256

/-- The field point of the chunk at a position. -/
def point (position : Nat) : Gf256 := ⟨UInt8.ofNat position⟩

/-- A product of elements. -/
def product (values : List Gf256) : Gf256 := values.foldl Gf256.lookup 1

/-- How much the value at `node` counts in the value at `target` of the polynomial that is known
at `nodes`. -/
def weight (nodes : List Gf256) (target node : Gf256) : Gf256 :=
  let others := nodes.filter (· ≠ node)
  (product (others.map (target - ·))).lookup (product (others.map (node - ·))).reciprocal

/-- The weights of the values at `nodes` in each of the values at `targets`. -/
def weights (nodes targets : List Gf256) : List (List Gf256) :=
  targets.map fun target => nodes.map (weight nodes target)

/-- A sum of symbols that are multiplied by weights. -/
def weightedSum (sum : Gf256) : List Gf256 → List Gf256 → Gf256
  | weight :: weights, symbol :: symbols =>
    weightedSum (sum + weight.lookup symbol) weights symbols
  | _, _ => sum

/-- The symbols that chunks of `size` bytes hold at each position. -/
def columns (size : Nat) (chunks : List Bytes) : List (List Gf256) :=
  chunks.foldr (List.zipWith fun byte column => ⟨byte⟩ :: column) (List.replicate size [])

/-- The chunks whose symbols are weighted sums of those of chunks of `size` bytes. -/
def applyWeights (table : List (List Gf256)) (size : Nat) (chunks : List Bytes) : List Bytes :=
  let symbols := columns size chunks
  table.map fun row => symbols.map fun column => (weightedSum 0 row column).byte

/-- The weights of `count` data chunks in as many parity chunks. -/
def parityWeights (count : Nat) : List (List Gf256) :=
  weights ((List.range count).map point) ((List.range count).map fun row => point (count + row))

/-- Whether chunks of an axis are as many as the code takes, and of one size. -/
def checkData (chunks : List Bytes) : Except CodecError Unit :=
  if chunks.isEmpty then .error .tooFewDataChunks
  else if maxChunks < 2 * chunks.length then .error .tooManyChunks
  else
    let size := (chunks.headD []).length
    if size = 0 then .error .emptyChunk
    else if chunks.any fun chunk => chunk.length != size then .error .unevenChunks
    else .ok ()

/-- The parity chunks of data chunks, as many as there are of those. -/
def encode (chunks : List Bytes) : Except CodecError (List Bytes) :=
  (checkData chunks).map fun _ =>
    applyWeights (parityWeights chunks.length) (chunks.headD []).length chunks

/-- Whether the chunks that are present have one length, given that of the ones before. -/
def checkPresent (size : Option Nat) : List (Option Bytes) → Except CodecError Unit
  | [] => .ok ()
  | none :: rest => checkPresent size rest
  | some chunk :: rest =>
    if chunk.isEmpty then .error .emptyChunk
    else if size.any (· != chunk.length) then .error .unevenChunks
    else checkPresent (some chunk.length) rest

/-- The chunks that are present, with their field points. -/
def present (chunks : List (Option Bytes)) : List (Gf256 × Bytes) :=
  chunks.zipIdx.filterMap fun (chunk, position) => chunk.map (point position, ·)

/-- Each missing chunk replaced by the value of the polynomial through the given ones. -/
def interpolate (known : List (Gf256 × Bytes)) (chunks : List (Option Bytes)) : List Bytes :=
  let nodes := known.map Prod.fst
  let size := ((known.map Prod.snd).headD []).length
  let symbols := columns size (known.map Prod.snd)
  chunks.zipIdx.map fun (chunk, position) =>
    match chunk with
    | some chunk => chunk
    | none =>
      let row := nodes.map (weight nodes (point position))
      symbols.map fun column => (weightedSum 0 row column).byte

/-- Fills in the missing chunks of an axis, of which the first half are data chunks. As many of the
present ones as there are data chunks fix the others. -/
def restore : ExceptT CodecError (StateM (List (Option Bytes))) Unit := do
  let chunks ← get
  let count := chunks.length / 2
  if count = 0 then throw .tooFewDataChunks
  else if maxChunks < chunks.length then throw .tooManyChunks
  else
    checkPresent none chunks
    let known := present chunks
    if known.length < chunks.length then
      if known.length < count then throw .tooFewPresent
      else set ((interpolate (known.take count) chunks).map some)

/-- All chunks of an axis of which some are missing. The first half are data chunks. -/
def decode (chunks : List (Option Bytes)) : Except CodecError (List Bytes) :=
  let (outcome, filled) := restore.run.run chunks
  outcome.map fun _ => filled.reduceOption

end DataSquare.Erasure
