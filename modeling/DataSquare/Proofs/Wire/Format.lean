import DataSquare.Proofs.Namespace
import DataSquare.Proofs.Outcome
import DataSquare.Wire.Format

/-!
# Formats read what they write

A format is lawful at a value when the encoding of the value has the announced size and is read
back as the value, whatever follows it. Each combinator keeps this. Lengths are written with 64
bits, so lists and byte strings have to be shorter than that.
-/
namespace DataSquare

namespace Format

variable {α β : Type}

/-- The encoding of a value has the announced size and is read back, whatever follows it. -/
structure LawfulAt (format : Format α) (value : α) : Prop where
  /-- The size is the one announced. -/
  size_eq : (format.encode value).length = format.size value
  /-- Reading the encoding returns the value and what follows. -/
  decode_encode : ∀ rest, format.decode (format.encode value ++ rest) = .ok (value, rest)

/-- The bytes in front are taken when there are as many as asked for. -/
theorem takeExactly_append {count : Nat} {front : Bytes} (length : front.length = count)
    (rest : Bytes) (fault : DecodeFault) :
    takeExactly count (front ++ rest) fault = .ok (front, rest) := by
  subst length
  rw [takeExactly, List.take_left, List.drop_left]
  exact if_pos rfl

/-- A length that fits 64 bits is read back. -/
theorem readLength_append {count : Nat} (short : count < UInt64.size) (rest : Bytes) :
    readLength (length count ++ rest) = .ok (count, rest) := by
  rw [readLength, length, takeExactly_append (length_littleEndian 8 count)]
  exact congrArg (fun value => Except.ok (value, rest)) (ofLittleEndian_littleEndian short)

/-- A byte is read back. -/
theorem lawfulAt_byte (value : UInt8) : byte.LawfulAt value := ⟨rfl, fun _ => rfl⟩

/-- A number of 32 bits is read back. -/
theorem lawfulAt_word32 (value : UInt32) : word32.LawfulAt value where
  size_eq := length_littleEndian 4 value.toNat
  decode_encode rest := by
    have whole : UInt32.ofNat (ofLittleEndian (littleEndian 4 value.toNat)) = value := by
      rw [ofLittleEndian_littleEndian value.toNat_lt, UInt32.ofNat_toNat]
    refine bind_eq_ok.mpr ⟨_, takeExactly_append (length_littleEndian 4 value.toNat) rest _, ?_⟩
    exact congrArg (fun value => Except.ok (value, rest)) whole

/-- A number of 64 bits is read back. -/
theorem lawfulAt_word64 (value : UInt64) : word64.LawfulAt value where
  size_eq := length_littleEndian 8 value.toNat
  decode_encode rest := by
    have whole : UInt64.ofNat (ofLittleEndian (littleEndian 8 value.toNat)) = value := by
      rw [ofLittleEndian_littleEndian value.toNat_lt, UInt64.ofNat_toNat]
    refine bind_eq_ok.mpr ⟨_, takeExactly_append (length_littleEndian 8 value.toNat) rest _, ?_⟩
    exact congrArg (fun value => Except.ok (value, rest)) whole

/-- A byte string of a fixed width is read back. -/
theorem lawfulAt_fixed {width : Nat} (value : FixedBytes width) :
    (fixed width).LawfulAt value where
  size_eq := value.length_eq
  decode_encode rest := by
    obtain ⟨bytes, rfl⟩ := value
    simp only [fixed, List.take_left, List.drop_left, dif_pos]

/-- A byte string is read back. -/
theorem lawfulAt_byteString {value : Bytes} (short : value.length < UInt64.size) :
    byteString.LawfulAt value where
  size_eq := by simp [byteString, length]
  decode_encode rest := by
    simp only [byteString, List.append_assoc]
    exact bind_eq_ok.mpr ⟨_, readLength_append short _, takeExactly_append rfl rest _⟩

/-- A text is read back when its bytes are as many as counted and make up the text. -/
theorem lawfulAt_text {value : String} (short : value.utf8ByteSize < UInt64.size)
    (size : (Text.toUtf8 value).length = value.utf8ByteSize)
    (back : Text.ofUtf8 (Text.toUtf8 value) = .ok value) : text.LawfulAt value where
  size_eq := by simp only [text, length, List.length_append, length_littleEndian, size]
  decode_encode rest := by
    simp only [text, List.append_assoc]
    refine bind_eq_ok.mpr ⟨_, readLength_append short _, bind_eq_ok.mpr
      ⟨_, takeExactly_append size rest _, ?_⟩⟩
    dsimp only
    rw [back]

/-- A namespace is read back. -/
theorem lawfulAt_ns (value : Namespace) : ns.LawfulAt value where
  size_eq := value.length_bytes
  decode_encode rest := by
    refine bind_eq_ok.mpr ⟨_, takeExactly_append value.length_bytes rest _, ?_⟩
    dsimp only
    rw [Namespace.ofBytes_bytes]

/-- Two values are read back in order. -/
theorem lawfulAt_pair {left : Format α} {right : Format β} {first : α} {second : β}
    (head : left.LawfulAt first) (tail : right.LawfulAt second) :
    (pair left right).LawfulAt (first, second) where
  size_eq := by simp only [pair, List.length_append, head.size_eq, tail.size_eq]
  decode_encode rest := by
    simp only [pair, List.append_assoc]
    exact bind_eq_ok.mpr ⟨_, head.decode_encode _, bind_eq_ok.mpr ⟨_, tail.decode_encode _, rfl⟩⟩

/-- A type that is written as another one is read back. -/
theorem lawfulAt_map {base : Format α} {read : α → β} {write : β → α} {value : β}
    (inner : base.LawfulAt (write value)) (back : read (write value) = value) :
    (base.map read write).LawfulAt value where
  size_eq := inner.size_eq
  decode_encode rest := by
    refine bind_eq_ok.mpr ⟨_, inner.decode_encode rest, ?_⟩
    exact congrArg (fun value => Except.ok (value, rest)) back

/-- Values that are read one after the other come behind those already read. -/
theorem decodeMany_append {item : Format α} {values : List α}
    (each : ∀ value ∈ values, item.LawfulAt value) (earlier : List α) (rest : Bytes) :
    decodeMany item values.length earlier (values.flatMap item.encode ++ rest) =
      .ok (earlier.reverse ++ values, rest) := by
  induction values generalizing earlier with
  | nil => rw [List.append_nil]; rfl
  | cons value values ih =>
    rw [List.flatMap_cons, List.append_assoc, List.length_cons, decodeMany,
      (each value List.mem_cons_self).decode_encode]
    dsimp only
    rw [ih (fun other member => each other (List.mem_cons_of_mem _ member)), List.reverse_cons,
      List.append_assoc]
    rfl

/-- A list takes its length and what its values take. -/
theorem size_list (item : Format α) (values : List α) :
    (list item).size values = 8 + (values.map item.size).sum := by
  rw [List.sum_eq_foldr, List.foldr_map]
  rfl

/-- A list is read back. -/
theorem lawfulAt_list {item : Format α} {values : List α} (short : values.length < UInt64.size)
    (each : ∀ value ∈ values, item.LawfulAt value) : (list item).LawfulAt values where
  size_eq := by
    have sizes : (values.flatMap item.encode).length = (values.map item.size).sum := by
      induction values with
      | nil => rfl
      | cons value values ih =>
        rw [List.flatMap_cons, List.length_append, List.map_cons, List.sum_cons,
          (each value List.mem_cons_self).size_eq,
          ih (Nat.lt_of_succ_lt short) fun other member =>
            each other (List.mem_cons_of_mem _ member)]
    rw [size_list, ← sizes]
    simp only [list, length, List.length_append, length_littleEndian]
  decode_encode rest := by
    simp only [list, List.append_assoc]
    exact bind_eq_ok.mpr ⟨_, readLength_append short _, decodeMany_append each [] rest⟩

/-- The second of two alternatives is read back. -/
theorem lawfulAt_inr {left : Format α} {right : Format β} {value : β}
    (inner : right.LawfulAt value) : (either left right).LawfulAt (.inr value) where
  size_eq := by
    simp only [either, List.length_append, (lawfulAt_word32 1).size_eq, inner.size_eq]
    rfl
  decode_encode rest := by
    simp only [either, List.append_assoc]
    refine bind_eq_ok.mpr ⟨_, (lawfulAt_word32 1).decode_encode _, ?_⟩
    exact bind_eq_ok.mpr ⟨_, inner.decode_encode rest, rfl⟩

/-- A value after marker bytes is read back. -/
theorem lawfulAt_marked {marker : Bytes} {item : Format α} {value : α}
    (inner : item.LawfulAt value) : (marked marker item).LawfulAt value where
  size_eq := by simp only [marked, List.length_append, inner.size_eq]
  decode_encode rest := by
    simp only [marked, List.append_assoc, List.take_left, List.drop_left, if_pos]
    exact inner.decode_encode rest

end Format

namespace Wire

variable {α : Type} {format : Format α} {value : α}

/-- A message is written exactly when it is small enough. -/
theorem serialize_eq_ok {bytes : Bytes} : serialize format value = .ok bytes ↔
    format.size value ≤ sizeLimit ∧ bytes = format.encode value := by
  unfold serialize
  by_cases small : format.size value ≤ sizeLimit <;> simp [small, eq_comm]

/-- A message is read back. -/
theorem deserialize_encode (lawful : format.LawfulAt value) :
    deserialize format (format.encode value) = .ok value := by
  have read := lawful.decode_encode []
  rw [List.append_nil] at read
  rw [deserialize, read]

end Wire

end DataSquare
