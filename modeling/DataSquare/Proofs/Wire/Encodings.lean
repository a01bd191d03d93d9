import DataSquare.Proofs.Wire.Exact
import DataSquare.Wire.Message
import DataSquare.Wire.Proof

/-!
# Encodings of messages

Transactions, envelopes, blocks, headers and proofs each have an exact format. A reader of one of
them therefore accepts precisely the encodings of the values that are admitted, which are all
values except blob transactions without blobs. Main statement: every such value of at most 16 MiB
is written and read back, every byte string that is read is the only one read as its value, and
nothing that is cut short or extended is read.
-/
namespace DataSquare

namespace Format

/-- Transfers have an exact format. -/
theorem exact_transfer : transfer.Exact :=
  have address : (fixed 20).Exact := exact_fixed (by decide)
  exact_map (exact_pair address (exact_pair address exact_word64)) (fun _ => rfl) fun _ => rfl

/-- Payments have an exact format. -/
theorem exact_payment : payment.Exact :=
  have address : (fixed 20).Exact := exact_fixed (by decide)
  have digest : (fixed 32).Exact := exact_fixed (by decide)
  exact_map (exact_pair address (exact_pair (exact_list exact_ns)
    (exact_pair (exact_list exact_word32) (exact_pair (exact_list digest)
      (exact_list exact_byte))))) (fun _ => rfl) fun _ => rfl

/-- Messages of transactions have an exact format. -/
theorem exact_message : message.Exact := by
  refine exact_map (exact_either exact_transfer exact_payment) (fun value => ?_) fun value => ?_
  · cases value <;> rfl
  · cases value <;> rfl

/-- Transactions have an exact format. -/
theorem exact_tx : tx.Exact :=
  have address : (fixed 20).Exact := exact_fixed (by decide)
  exact_map (exact_pair (exact_list address) (exact_pair (exact_list exact_message)
    (exact_pair exact_word64 (exact_pair exact_word64 exact_text)))) (fun _ => rfl) fun _ => rfl

/-- Blobs have an exact format. -/
theorem exact_blob : blob.Exact :=
  exact_map (exact_pair exact_ns (exact_pair exact_byteString exact_byte)) (fun _ => rfl)
    fun _ => rfl

/-- Blob transactions have an exact format. -/
theorem exact_blobTx : blobTx.Exact :=
  exact_marked (exact_map (exact_pair exact_byteString (exact_list exact_blob)) (fun _ => rfl)
    fun _ => rfl)

/-- Index wrappers have an exact format. -/
theorem exact_indexWrapper : indexWrapper.Exact :=
  exact_marked (exact_map (exact_pair exact_byteString (exact_list exact_word32)) (fun _ => rfl)
    fun _ => rfl)

/-- Contents of blocks have an exact format. -/
theorem exact_blockData : blockData.Exact :=
  exact_map (exact_pair (exact_list exact_byteString)
    (exact_pair (exact_list exact_blob) exact_word64)) (fun _ => rfl) fun _ => rfl

/-- Headers of blocks have an exact format. -/
theorem exact_blockHeader : blockHeader.Exact :=
  have address : (fixed 20).Exact := exact_fixed (by decide)
  have digest : (fixed 32).Exact := exact_fixed (by decide)
  exact_map (exact_pair exact_word64 (exact_pair address digest)) (fun _ => rfl) fun _ => rfl

/-- Blocks have an exact format. -/
theorem exact_block : block.Exact :=
  exact_map (exact_pair exact_blockHeader exact_blockData) (fun _ => rfl) fun _ => rfl

/-- Nodes of namespaced trees have an exact format. -/
theorem exact_namespacedHash : namespacedHash.Exact :=
  have digest : (fixed 32).Exact := exact_fixed (by decide)
  exact_map (exact_pair exact_ns (exact_pair exact_ns digest)) (fun _ => rfl) fun _ => rfl

/-- Siblings have an exact format. -/
theorem exact_sibling : sibling.Exact := by
  have digest : (fixed 32).Exact := exact_fixed (by decide)
  refine exact_map (exact_either digest digest) (fun value => ?_) fun value => ?_
  · cases value <;> rfl
  · cases value <;> rfl

/-- Proofs in plain trees have an exact format. -/
theorem exact_proof : proof.Exact :=
  exact_map (exact_pair exact_word64 (exact_pair exact_word64 (exact_list exact_sibling)))
    (fun _ => rfl) fun _ => rfl

/-- Proofs of runs of leaves have an exact format. -/
theorem exact_rangeProof : rangeProof.Exact :=
  exact_map (exact_pair exact_word64 (exact_pair exact_word64 (exact_pair exact_word64
    (exact_list exact_namespacedHash)))) (fun _ => rfl) fun _ => rfl

/-- Headers of squares have an exact format. -/
theorem exact_availabilityHeader : availabilityHeader.Exact :=
  have roots : (list namespacedHash).Exact := exact_list exact_namespacedHash
  exact_map (exact_pair roots roots) (fun _ => rfl) fun _ => rfl

/-- Proofs of rows have an exact format. -/
theorem exact_rowProof : rowProof.Exact :=
  exact_map (exact_pair (exact_list exact_namespacedHash) (exact_pair (exact_list exact_proof)
    (exact_pair exact_word64 exact_word64))) (fun _ => rfl) fun _ => rfl

/-- Proofs of shares have an exact format. -/
theorem exact_shareProof : shareProof.Exact :=
  exact_map (exact_pair (exact_list exact_byteString) (exact_pair exact_ns
    (exact_pair (exact_list exact_rangeProof) exact_rowProof))) (fun _ => rfl) fun _ => rfl

end Format

namespace Wire

variable {α ε : Type}

/-- A writer and a reader of messages are inverse to each other on the values admitted. -/
structure IsExact (format : Format α) (admitted : α → Prop) (write : α → Except ε Bytes)
    (read : Bytes → Except ε α) : Prop where
  /-- A value that is not too large is written with the announced size and read back. -/
  written : ∀ value, admitted value → format.size value ≤ sizeLimit →
    serializedSize format value = .ok (format.size value) ∧
      ∃ bytes, write value = .ok bytes ∧ bytes.length = format.size value ∧
        read bytes = .ok value
  /-- What is read is the encoding of an admitted value, which is written as that if it is not
  too large. -/
  encoded : ∀ bytes value, read bytes = .ok value →
    admitted value ∧ bytes = format.encode value ∧
      (bytes.length ≤ sizeLimit → write value = .ok bytes)
  /-- Different byte strings are not read as one value. -/
  unique : ∀ first second value, read first = .ok value → read second = .ok value →
    first = second
  /-- What is read is not read when its end is missing. -/
  truncated : ∀ bytes value, read bytes = .ok value → ∀ count < bytes.length,
    ∃ cause, read (bytes.take count) = .error cause
  /-- What is read is not read with bytes after it. -/
  extended : ∀ bytes value, read bytes = .ok value → ∀ more ≠ [],
    ∃ cause, read (bytes ++ more) = .error cause

/-- A message is read when it holds one value and nothing else. -/
theorem deserialize_eq_ok {format : Format α} {bytes : Bytes} {value : α} :
    deserialize format bytes = .ok value ↔ format.decode bytes = .ok (value, []) := by
  unfold deserialize
  split
  case h_1 fault failed => simp [failed]
  case h_2 found read => simp [read]
  case h_3 found first rest read => simp [read]

section Exact

variable {format : Format α} (exact : format.Exact) {admitted : α → Prop}
  {write : α → Except ε Bytes} {read : Bytes → Except ε α}
  (reads : ∀ bytes value, read bytes = .ok value ↔
    format.decode bytes = .ok (value, []) ∧ admitted value)

include exact reads

/-- A reader of an exact format takes only encodings. -/
theorem lawful_of_read {bytes : Bytes} {value : α} (accepted : read bytes = .ok value) :
    format.LawfulAt value ∧ bytes = format.encode value := by
  obtain ⟨lawful, whole⟩ := exact.canonical ((reads bytes value).mp accepted).1
  exact ⟨lawful, whole.trans (List.append_nil _)⟩

/-- A reader of an exact format refuses what has bytes after an encoding. -/
theorem refused_of_append {bytes more : Bytes} {value : α} (accepted : read bytes = .ok value)
    (present : more ≠ []) : ∃ cause, read (bytes ++ more) = .error cause := by
  apply exists_error_of_ne_ok
  intro other outcome
  have front := ((reads _ _).mp accepted).1
  have whole := ((reads _ _).mp outcome).1
  exact present (exact.prefix_free front whole)

/-- A writer and a reader are exact when they use one exact format and the reader checks nothing
but what is admitted. -/
theorem isExact_of_exact
    (writes : ∀ value bytes, write value = .ok bytes ↔
      format.size value ≤ sizeLimit ∧ bytes = format.encode value) :
    IsExact format admitted write read := by
  constructor
  case written =>
    intro value valid small
    have limit : sizeLimit < UInt64.size := by decide
    have lawful : format.LawfulAt value := exact.lawful value (by omega)
    have decoded := lawful.decode_encode []
    rw [List.append_nil] at decoded
    refine ⟨if_pos small, format.encode value, (writes _ _).mpr ⟨small, rfl⟩, lawful.size_eq, ?_⟩
    exact (reads _ _).mpr ⟨decoded, valid⟩
  case encoded =>
    intro bytes value accepted
    obtain ⟨lawful, rfl⟩ := lawful_of_read exact reads accepted
    refine ⟨((reads _ _).mp accepted).2, rfl, fun small => (writes _ _).mpr ⟨?_, rfl⟩⟩
    rwa [lawful.size_eq] at small
  case unique =>
    intro first second value left right
    have one : first = format.encode value := (lawful_of_read exact reads left).2
    have two : second = format.encode value := (lawful_of_read exact reads right).2
    rw [one, two]
  case truncated =>
    intro bytes value accepted count short
    apply exists_error_of_ne_ok
    intro other outcome
    have cut : bytes.drop count ≠ [] := List.drop_eq_nil_iff.not.mpr (Nat.not_le.mpr short)
    obtain ⟨cause, failed⟩ := refused_of_append exact reads outcome cut
    rw [List.take_append_drop, accepted] at failed
    cases failed
  case extended =>
    intro bytes value accepted more present
    exact refused_of_append exact reads accepted present

end Exact

/-- Messages without a rule of their own are exact when their format is. -/
theorem isExact_serialize {format : Format α} (exact : format.Exact) :
    IsExact format (fun _ => True) (serialize format) (deserialize format) :=
  isExact_of_exact exact (fun _ _ => deserialize_eq_ok.trans (and_iff_left trivial).symm)
    fun _ _ => serialize_eq_ok

end Wire

/-- What starts with a marker and is read behind it passes the check for the marker. -/
theorem Format.take_of_marked {α : Type} {marker bytes rest : Bytes} {item : Format α} {value : α}
    (read : (marked marker item).decode bytes = .ok (value, rest)) :
    bytes.take marker.length = marker := by
  by_contra missing
  have refused := (if_neg missing).symm.trans read
  cases refused

/-- Blob transactions with at least one blob are written and read exactly. -/
theorem BlobTx.isExact : Wire.IsExact Format.blobTx (fun blobTx => blobTx.blobs ≠ [])
    BlobTx.toBytes BlobTx.ofBytes := by
  refine Wire.isExact_of_exact Format.exact_blobTx (fun bytes value => ?_) fun value bytes => ?_
  · rw [← Wire.deserialize_eq_ok]
    constructor
    · intro accepted
      rw [ofBytes] at accepted
      split at accepted
      case isTrue marked =>
        cases outcome : Wire.deserialize Format.blobTx bytes with
        | error cause =>
          rw [outcome] at accepted
          cases accepted
        | ok found =>
          rw [outcome] at accepted
          by_cases empty : found.blobs.isEmpty = true
          · have refused := (if_pos empty).symm.trans accepted
            cases refused
          · obtain rfl := Except.ok.inj ((if_neg empty).symm.trans accepted)
            exact ⟨rfl, fun absent => empty (List.isEmpty_iff.mpr absent)⟩
      case isFalse unmarked => cases accepted
    · rintro ⟨decoded, present⟩
      have front := Format.take_of_marked (Wire.deserialize_eq_ok.mp decoded)
      have marked : isMarked bytes = true := beq_iff_eq.mpr front
      have filled : ¬ value.blobs.isEmpty = true := fun absent => present (List.isEmpty_iff.mp absent)
      rw [ofBytes, if_pos marked, decoded]
      exact if_neg filled
  · rw [toBytes, mapError_eq_ok, Wire.serialize_eq_ok]

/-- Index wrappers are written and read exactly. -/
theorem IndexWrapper.isExact : Wire.IsExact Format.indexWrapper (fun _ => True)
    IndexWrapper.toBytes IndexWrapper.ofBytes := by
  refine Wire.isExact_of_exact Format.exact_indexWrapper (fun bytes value => ?_)
    fun value bytes => ?_
  · rw [← Wire.deserialize_eq_ok]
    constructor
    · intro accepted
      rw [ofBytes] at accepted
      split at accepted
      case isTrue marked => exact ⟨mapError_eq_ok.mp accepted, trivial⟩
      case isFalse unmarked => cases accepted
    · rintro ⟨decoded, -⟩
      have front := Format.take_of_marked (Wire.deserialize_eq_ok.mp decoded)
      have marked : isMarked bytes = true := beq_iff_eq.mpr front
      rw [ofBytes, if_pos marked]
      exact mapError_eq_ok.mpr decoded
  · rw [toBytes, mapError_eq_ok, Wire.serialize_eq_ok]

/-- Every message is written and read exactly: a value of at most 16 MiB is written with the
announced size and read back, what is read is the encoding of its value and of no other, and
what is cut short or extended is refused. -/
theorem messages_isExact :
    Wire.IsExact Format.tx (fun _ => True) Tx.toBytes Tx.ofBytes ∧
      Wire.IsExact Format.blobTx (fun blobTx => blobTx.blobs ≠ []) BlobTx.toBytes
        BlobTx.ofBytes ∧
      Wire.IsExact Format.indexWrapper (fun _ => True) IndexWrapper.toBytes
        IndexWrapper.ofBytes ∧
      Wire.IsExact Format.blockData (fun _ => True) BlockData.toBytes BlockData.ofBytes ∧
      Wire.IsExact Format.block (fun _ => True) (Wire.serialize Format.block)
        (Wire.deserialize Format.block) ∧
      Wire.IsExact Format.availabilityHeader (fun _ => True)
        (Wire.serialize Format.availabilityHeader)
        (Wire.deserialize Format.availabilityHeader) ∧
      Wire.IsExact Format.shareProof (fun _ => True) (Wire.serialize Format.shareProof)
        (Wire.deserialize Format.shareProof) :=
  ⟨Wire.isExact_serialize Format.exact_tx, BlobTx.isExact, IndexWrapper.isExact,
    Wire.isExact_serialize Format.exact_blockData, Wire.isExact_serialize Format.exact_block,
    Wire.isExact_serialize Format.exact_availabilityHeader,
    Wire.isExact_serialize Format.exact_shareProof⟩

end DataSquare
