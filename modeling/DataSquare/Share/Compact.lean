import DataSquare.Share.Basic
import DataSquare.Varint

/-!
# Compact sequences

Transactions are units of one sequence: each is preceded by its length, and the units follow each
other without gaps over as few shares as possible. The reserved bytes of a share point at the
first unit whose length starts in it, and are zero when none does.
-/
namespace DataSquare.Compact

/-- A unit with its length in front. -/
def delimited (unit : Bytes) : Bytes := Varint.encode unit.length ++ unit

/-- All units with their lengths in front. -/
def stream (units : List Bytes) : Bytes := units.flatMap delimited

/-- The number of bytes of all units with their lengths in front. -/
def streamLength (units : List Bytes) : Nat :=
  units.foldr (fun unit rest => (Varint.encode unit.length).length + unit.length + rest) 0

/-- The positions in the stream at which the units and the end of the last one stand, counted
from `start`. -/
def boundaries (start : Nat) : List Bytes → List Nat
  | [] => [start]
  | unit :: rest => start :: boundaries (start + (delimited unit).length) rest

/-- The position in the stream at which the content of a share starts. -/
def contentStart (share : Nat) : Nat :=
  if share = 0 then 0 else firstCompactContent + (share - 1) * laterCompactContent

/-- The number of bytes of the stream that a share has room for. -/
def contentSize (share : Nat) : Nat :=
  if share = 0 then firstCompactContent else laterCompactContent

/-- The share whose content holds a position of the stream. -/
def shareOfPosition (position : Nat) : Nat :=
  if position < firstCompactContent then 0
  else 1 + (position - firstCompactContent) / laterCompactContent

/-- A range of shares. -/
structure ShareRange where
  /-- The first share. -/
  start : Nat
  /-- The share after the last. -/
  stop : Nat
deriving DecidableEq

/-- The shares that hold the positions from `start` up to `stop`. -/
def rangeOf (start stop : Nat) : ShareRange :=
  ⟨shareOfPosition start, shareOfPosition (stop - 1) + 1⟩

/-- A compact sequence, with the shares that each of its units touches. -/
structure Sequence where
  /-- The shares in order. -/
  shares : List Share
  /-- The shares of each unit in order. -/
  unitRanges : List ShareRange
deriving DecidableEq

/-- The sequence of no units. -/
def Sequence.empty : Sequence := ⟨[], []⟩

/-- Where in a share the first unit starts that starts in it, and zero without one. -/
def reservedFor (starts : List Nat) (share : Nat) : Nat :=
  let first := contentStart share
  let size := contentSize share
  match starts.find? (fun start => first ≤ start && start < first + size) with
  | some start => shareSize - size + (start - first)
  | none => 0

/-- One share of a sequence of `length` bytes. -/
def shareAt (ns : Namespace) (length : Nat) (starts : List Nat) (content : Bytes) (share : Nat) :
    Share :=
  Share.build ns ⟨if share = 0 then 1 else 0⟩
    (if share = 0 then some (UInt32.ofNat length) else none)
    (some (UInt32.ofNat (reservedFor starts share))) content

/-- Writes units as one sequence of a namespace. Without units there are no shares. The length of the
stream is counted first, so that a stream that does not fit its field is never written. -/
def split (ns : Namespace) (units : List Bytes) : Except ShareError Sequence :=
  if units.isEmpty then .ok .empty
  else
    let length := streamLength units
    if length < UInt32.size then
      let whole := stream units
      let marks := boundaries 0 units
      let starts := marks.take units.length
      let contents := whole.take firstCompactContent ::
        pieces laterCompactContent (whole.drop firstCompactContent)
      .ok {
        shares := contents.zipIdx.map fun (content, share) => shareAt ns length starts content share
        unitRanges := List.zipWith rangeOf marks (marks.drop 1) }
    else .error (.sequenceTooLong length)

/-- What every share of a sequence in a namespace has to satisfy. -/
def checkShare (ns : Namespace) (share : Share) (position : Nat) : Except ShareError Unit :=
  if 0 < position && share.isSequenceStart then .error (.unexpectedSequenceStart position)
  else match share.ns with
    | .error cause => .error (.namespaceError cause)
    | .ok own =>
      if own ≠ ns then .error (.namespaceChanged position)
      else
        let reserved := share.reservedBytes.getD 0
        if reserved ≠ 0 ∧ ¬(share.headerLength ≤ reserved.toNat ∧ reserved.toNat < shareSize) then
          .error (.invalidReservedBytes reserved)
        else .ok ()

/-- A number that was read leaves fewer bytes. -/
theorem length_decodeFrom_lt {shift value length : Nat} {bytes rest : Bytes}
    (h : Varint.decodeFrom shift value bytes = some (length, rest)) :
    rest.length < bytes.length := by
  induction bytes generalizing shift value with
  | nil => simp [Varint.decodeFrom] at h
  | cons byte tail ih =>
    simp only [Varint.decodeFrom] at h
    split at h
    · simp only [Option.some.injEq, Prod.mk.injEq] at h
      simp [h.2]
    · split at h
      · simp at h
      · exact Nat.lt_trans (ih h) (by simp)

/-- Reads the units of a stream. -/
def readUnits (bytes : Bytes) : Except ShareError (List Bytes) :=
  if bytes.isEmpty then .ok []
  else
    match _h : Varint.decode bytes with
    | none => .error .invalidDelimiter
    | some (length, rest) =>
      let unit := rest.take length
      if unit.length < length then .error .truncatedUnit
      else match readUnits (rest.drop length) with
        | .ok units => .ok (unit :: units)
        | .error cause => .error cause
termination_by bytes.length
decreasing_by
  have := length_decodeFrom_lt _h
  simp only [List.length_drop]
  omega

/-- Reads back the units of exactly one sequence. -/
def parse (shares : List Share) : Except ShareError (List Bytes) :=
  match shares with
  | [] => .error .empty
  | first :: _ =>
    match first.ns with
    | .error cause => .error (.namespaceError cause)
    | .ok ns =>
      match first.sequenceLength with
      | none => .error (.missingSequenceStart 0)
      | some length =>
        let needed := compactSharesNeeded length.toNat
        if needed ≠ shares.length then
          .error (.sequenceLengthMismatch length needed shares.length)
        else
          match shares.zipIdx.forM (fun (share, position) => checkShare ns share position) with
          | .error cause => .error cause
          | .ok () => readUnits ((shares.flatMap Share.content).take length.toNat)

end DataSquare.Compact
