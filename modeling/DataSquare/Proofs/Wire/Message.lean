import DataSquare.Proofs.Wire.Format
import DataSquare.Wire.Message

/-!
# Encoded transactions and index wrappers

An index wrapper that is written carries its marker, has the size that is counted for it, and is
read back. Transactions are read back when their lists and texts are.
-/
namespace DataSquare

namespace IndexWrapper

variable {wrapper : IndexWrapper} {raw : Bytes}

/-- The size of an index wrapper: marker, two lengths, the transaction, and four bytes for each
share index. -/
theorem size_eq (wrapper : IndexWrapper) : Format.indexWrapper.size wrapper =
    wrapper.tx.length + 20 + 4 * wrapper.shareIndexes.length := by
  have words : (Format.list Format.word32).size wrapper.shareIndexes =
      8 + wrapper.shareIndexes.length * 4 := by
    have each : Format.word32.size = Function.const _ 4 := rfl
    rw [Format.size_list, each, List.map_const, List.sum_replicate, smul_eq_mul]
  change 4 + (8 + wrapper.tx.length + (Format.list Format.word32).size wrapper.shareIndexes) = _
  rw [words]
  omega

/-- An index wrapper whose parts have lengths of 64 bits is read back. -/
theorem lawfulAt (tx : wrapper.tx.length < UInt64.size)
    (indexes : wrapper.shareIndexes.length < UInt64.size) :
    Format.indexWrapper.LawfulAt wrapper :=
  Format.lawfulAt_marked (Format.lawfulAt_map (Format.lawfulAt_pair
    (Format.lawfulAt_byteString tx)
    (Format.lawfulAt_list indexes fun _ _ => Format.lawfulAt_word32 _)) rfl)

/-- An index wrapper is written exactly when it is small enough. -/
theorem toBytes_eq_ok : wrapper.toBytes = .ok raw ↔
    wrapper.tx.length + 20 + 4 * wrapper.shareIndexes.length ≤ Wire.sizeLimit ∧
      raw = Format.indexWrapper.encode wrapper := by
  rw [toBytes, mapError_eq_ok, Wire.serialize_eq_ok, size_eq]

/-- An index wrapper that is written is read back. -/
theorem ofBytes_of_toBytes (written : wrapper.toBytes = .ok raw) :
    isMarked raw = true ∧ ofBytes raw = .ok wrapper ∧
      raw.length = wrapper.tx.length + 20 + 4 * wrapper.shareIndexes.length := by
  obtain ⟨small, rfl⟩ := toBytes_eq_ok.mp written
  have limit : Wire.sizeLimit < UInt64.size := by decide
  have lawful : Format.indexWrapper.LawfulAt wrapper := lawfulAt (by omega) (by omega)
  have isMarked : isMarked (Format.indexWrapper.encode wrapper) = true :=
    beq_iff_eq.mpr (List.take_left' (rfl : marker.length = 4))
  refine ⟨isMarked, ?_, ?_⟩
  · rw [ofBytes, if_pos isMarked, Wire.deserialize_encode lawful]
    rfl
  · rw [lawful.size_eq, size_eq]

end IndexWrapper

/-- A payment is read back when its lists are short enough. -/
theorem BlobPayment.lawfulAt {payment : BlobPayment}
    (namespaces : payment.namespaces.length < UInt64.size)
    (sizes : payment.blobSizes.length < UInt64.size)
    (commitments : payment.commitments.length < UInt64.size)
    (versions : payment.shareVersions.length < UInt64.size) : Format.payment.LawfulAt payment :=
  Format.lawfulAt_map (Format.lawfulAt_pair (Format.lawfulAt_fixed _)
    (Format.lawfulAt_pair (Format.lawfulAt_list namespaces fun _ _ => Format.lawfulAt_ns _)
      (Format.lawfulAt_pair (Format.lawfulAt_list sizes fun _ _ => Format.lawfulAt_word32 _)
        (Format.lawfulAt_pair (Format.lawfulAt_list commitments fun _ _ => Format.lawfulAt_fixed _)
          (Format.lawfulAt_list versions fun _ _ => Format.lawfulAt_byte _))))) rfl

/-- A message that is a payment is read back when the payment is. -/
theorem Message.lawfulAt_payment {payment : BlobPayment}
    (lawful : Format.payment.LawfulAt payment) :
    Format.message.LawfulAt (.payment payment) :=
  Format.lawfulAt_map (Format.lawfulAt_inr lawful) rfl

/-- A transaction is read back when its messages and its memo are. -/
theorem Tx.lawfulAt {tx : Tx} (signers : tx.signers.length < UInt64.size)
    (count : tx.messages.length < UInt64.size)
    (messages : ∀ message ∈ tx.messages, Format.message.LawfulAt message)
    (memo : Format.text.LawfulAt tx.memo) : Format.tx.LawfulAt tx :=
  Format.lawfulAt_map (Format.lawfulAt_pair
    (Format.lawfulAt_list signers fun _ _ => Format.lawfulAt_fixed _)
    (Format.lawfulAt_pair (Format.lawfulAt_list count messages)
      (Format.lawfulAt_pair (Format.lawfulAt_word64 _)
        (Format.lawfulAt_pair (Format.lawfulAt_word64 _) memo)))) rfl

end DataSquare
