import DataSquare.Blob
import DataSquare.Share.Basic

/-!
# Sparse sequences

Every blob takes a sequence of its own that starts on a fresh share. Reading a run of sparse
shares skips padding and takes each sequence as long as its first share declares.
-/
namespace DataSquare.Sparse

/-- Writes data as one sequence. Data without bytes still takes a share. -/
def write (ns : Namespace) (version : UInt8) (data : Bytes) : Except ShareError (List Share) :=
  if data.length < UInt32.size then do
    let start ← InfoByte.make version true
    let later ← InfoByte.make version false
    let first := Share.build ns start (some (UInt32.ofNat data.length)) none
      (data.take firstSparseContent)
    .ok (first :: (pieces laterSparseContent (data.drop firstSparseContent)).map
      fun piece => Share.build ns later none none piece)
  else .error (.sequenceTooLong data.length)

/-- Writes a blob as its shares. -/
def splitBlob (blob : Blob) : Except ShareError (List Share) :=
  write blob.ns blob.shareVersion blob.data

/-- Writes data as one sequence of shares of version zero. -/
def encode (data : Bytes) (ns : Namespace) : Except ShareError (List Share) := write ns 0 data

/-- What every share of a sequence in a namespace has to satisfy. -/
def checkShare (ns : Namespace) (offset : Nat) (share : Share) (position : Nat) :
    Except ShareError Unit :=
  if 0 < position && share.isSequenceStart then
    .error (.unexpectedSequenceStart (offset + position))
  else match share.ns with
    | .error cause => .error (.namespaceError cause)
    | .ok own => if own ≠ ns then .error (.namespaceChanged (offset + position)) else .ok ()

/-- Reads exactly one sequence, whose first share stands at `offset`. -/
def readSequence (shares : List Share) (offset : Nat) : Except ShareError (Namespace × Bytes) :=
  match shares with
  | [] => .error .empty
  | first :: _ =>
    match first.ns with
    | .error cause => .error (.namespaceError cause)
    | .ok ns =>
      match first.sequenceLength with
      | none => .error (.missingSequenceStart offset)
      | some length =>
        let needed := max 1 (sparseSharesNeeded length.toNat)
        if needed ≠ shares.length then
          .error (.sequenceLengthMismatch length needed shares.length)
        else
          match shares.zipIdx.forM (fun (share, position) =>
            checkShare ns offset share position) with
          | .error cause => .error cause
          | .ok () => .ok (ns, (shares.flatMap Share.content).take length.toNat)

/-- Reads back the data of exactly one sequence. -/
def decode (shares : List Share) : Except ShareError Bytes :=
  (readSequence shares 0).map Prod.snd

/-- Reads the blobs of shares that stand from `offset` on. -/
def parseFrom (offset : Nat) (shares : List Share) : Except ShareError (List Blob) :=
  match shares with
  | [] => .ok []
  | share :: rest =>
    if share.isPadding then parseFrom (offset + 1) rest
    else match share.sequenceLength with
      | none => .error (.missingSequenceStart offset)
      | some length =>
        let needed := sparseSharesNeeded length.toNat
        if (share :: rest).length < needed then
          .error (.sequenceLengthMismatch length needed (share :: rest).length)
        else
          match readSequence ((share :: rest).take needed) offset with
          | .error cause => .error cause
          | .ok (ns, data) =>
            match parseFrom (offset + needed) (rest.drop (needed - 1)) with
            | .error cause => .error cause
            | .ok blobs => .ok (⟨ns, data, share.info.version⟩ :: blobs)
termination_by shares.length
decreasing_by all_goals simp only [List.length_drop, List.length_cons]; omega

/-- Reads every blob of a run of sparse shares. -/
def parse (shares : List Share) : Except ShareError (List Blob) := parseFrom 0 shares

end DataSquare.Sparse
