import DataSquare.Proofs.Wire.Format

/-!
# Exact formats

A format is exact when it reads back every value that is short enough to be counted, and reads
nothing but its own encodings. No value then has two encodings, and no encoding starts another
one. Each combinator keeps exactness. An encoding is never empty, so the length of a list is
bounded by the length of its encoding, and the 64 bits of its count suffice.
-/
namespace DataSquare

namespace Text

/-- The bytes of a text are as many as its size says. -/
theorem length_toUtf8 (text : String) : (toUtf8 text).length = text.utf8ByteSize := rfl

/-- The bytes of a text are read back as the text. -/
theorem ofUtf8_toUtf8 (text : String) : ofUtf8 (toUtf8 text) = .ok text := by
  have valid : (⟨(toUtf8 text).toArray⟩ : ByteArray).IsValidUTF8 := text.isValidUTF8
  have found : String.fromUTF8? ⟨(toUtf8 text).toArray⟩ = some text := dif_pos valid
  rw [ofUtf8, found]

/-- Bytes that make up a text are the bytes of that text. -/
theorem toUtf8_of_ofUtf8 {bytes : Bytes} {text : String} (read : ofUtf8 bytes = .ok text) :
    toUtf8 text = bytes := by
  by_cases valid : (⟨bytes.toArray⟩ : ByteArray).IsValidUTF8
  · have found : String.fromUTF8? ⟨bytes.toArray⟩ = some (.fromUTF8 ⟨bytes.toArray⟩ valid) :=
      dif_pos valid
    rw [ofUtf8, found] at read
    obtain rfl := Except.ok.inj read
    rfl
  · have missing : String.fromUTF8? ⟨bytes.toArray⟩ = none := dif_neg valid
    rw [ofUtf8, missing] at read
    cases read

end Text

namespace Format

variable {α β : Type}

/-- A format that reads back what it writes and reads nothing else. -/
structure Exact (format : Format α) : Prop where
  /-- An encoding is not empty. -/
  size_pos : ∀ value, 0 < format.size value
  /-- A value whose size fits 64 bits is read back. -/
  lawful : ∀ value, format.size value < UInt64.size → format.LawfulAt value
  /-- A value that was read is read back, and its encoding is what was read. -/
  canonical : ∀ {bytes value rest}, format.decode bytes = .ok (value, rest) →
    format.LawfulAt value ∧ bytes = format.encode value ++ rest

/-- Bytes that are taken are as many as asked for, and in front of the others. -/
theorem takeExactly_eq_ok {count : Nat} {bytes front rest : Bytes} {fault : DecodeFault} :
    takeExactly count bytes fault = .ok (front, rest) ↔
      front.length = count ∧ bytes = front ++ rest := by
  constructor
  · intro taken
    by_cases enough : (bytes.take count).length = count
    · have parts : Except.ok (bytes.take count, bytes.drop count) = .ok (front, rest) :=
        (if_pos enough).symm.trans taken
      obtain ⟨rfl, rfl⟩ := Prod.mk.inj (Except.ok.inj parts)
      exact ⟨enough, (List.take_append_drop count bytes).symm⟩
    · have missing := (if_neg enough).symm.trans taken
      cases missing
  · rintro ⟨length, rfl⟩
    exact takeExactly_append length rest fault

/-- Bytes that are taken as a number are those that the number is written with. -/
theorem littleEndian_of_takeExactly {width : Nat} {bytes front rest : Bytes} {fault : DecodeFault}
    (taken : takeExactly width bytes fault = .ok (front, rest)) :
    ofLittleEndian front < capacity width ∧
      bytes = littleEndian width (ofLittleEndian front) ++ rest := by
  obtain ⟨length, rfl⟩ := takeExactly_eq_ok.mp taken
  have fits := ofLittleEndian_lt front
  have same := littleEndian_ofLittleEndian front
  rw [length] at fits same
  exact ⟨fits, by rw [same]⟩

/-- A length that is read fits 64 bits, and its eight bytes are in front. -/
theorem readLength_eq_ok {count : Nat} {bytes rest : Bytes} :
    readLength bytes = .ok (count, rest) ↔
      count < UInt64.size ∧ bytes = length count ++ rest := by
  constructor
  · intro read
    obtain ⟨⟨front, after⟩, taken, counted⟩ := bind_eq_ok.mp read
    obtain ⟨rfl, rfl⟩ := Prod.mk.inj (Except.ok.inj counted)
    exact littleEndian_of_takeExactly taken
  · rintro ⟨short, rfl⟩
    exact readLength_append short rest

/-- Single bytes are an exact format. -/
theorem exact_byte : byte.Exact where
  size_pos _ := Nat.one_pos
  lawful value _ := lawfulAt_byte value
  canonical {bytes value rest} read := by
    cases bytes with
    | nil => cases read
    | cons first rest =>
      obtain ⟨rfl, rfl⟩ := Prod.mk.inj (Except.ok.inj read)
      exact ⟨lawfulAt_byte _, rfl⟩

/-- Numbers of 32 bits are an exact format. -/
theorem exact_word32 : word32.Exact where
  size_pos _ := Nat.succ_pos 3
  lawful value _ := lawfulAt_word32 value
  canonical {bytes value rest} read := by
    obtain ⟨⟨front, after⟩, taken, counted⟩ := bind_eq_ok.mp read
    obtain ⟨fits, split⟩ := littleEndian_of_takeExactly taken
    obtain ⟨rfl, rfl⟩ := Prod.mk.inj (Except.ok.inj counted)
    refine ⟨lawfulAt_word32 _, ?_⟩
    have number : (UInt32.ofNat (ofLittleEndian front)).toNat = ofLittleEndian front :=
      UInt32.toNat_ofNat_of_lt' fits
    simpa only [word32, number] using split

/-- Numbers of 64 bits are an exact format. -/
theorem exact_word64 : word64.Exact where
  size_pos _ := Nat.succ_pos 7
  lawful value _ := lawfulAt_word64 value
  canonical {bytes value rest} read := by
    obtain ⟨⟨front, after⟩, taken, counted⟩ := bind_eq_ok.mp read
    obtain ⟨fits, split⟩ := littleEndian_of_takeExactly taken
    obtain ⟨rfl, rfl⟩ := Prod.mk.inj (Except.ok.inj counted)
    refine ⟨lawfulAt_word64 _, ?_⟩
    have number : (UInt64.ofNat (ofLittleEndian front)).toNat = ofLittleEndian front :=
      UInt64.toNat_ofNat_of_lt' fits
    simpa only [word64, number] using split

/-- Byte strings of a fixed width, which is not zero, are an exact format. -/
theorem exact_fixed {width : Nat} (positive : 0 < width) : (fixed width).Exact where
  size_pos _ := positive
  lawful value _ := lawfulAt_fixed value
  canonical {bytes value rest} read := by
    refine ⟨lawfulAt_fixed value, ?_⟩
    by_cases enough : (bytes.take width).length = width
    · have parts := (dif_pos enough).symm.trans read
      obtain ⟨rfl, rfl⟩ := Prod.mk.inj (Except.ok.inj parts)
      exact (List.take_append_drop width bytes).symm
    · have missing := (dif_neg enough).symm.trans read
      cases missing

/-- Byte strings after their length are an exact format. -/
theorem exact_byteString : byteString.Exact where
  size_pos value := Nat.add_pos_left (Nat.succ_pos 7) value.length
  lawful value small := lawfulAt_byteString (by
    have size : byteString.size value = 8 + value.length := rfl
    omega)
  canonical {bytes value rest} read := by
    obtain ⟨⟨count, after⟩, counted, taken⟩ := bind_eq_ok.mp read
    obtain ⟨short, rfl⟩ := readLength_eq_ok.mp counted
    obtain ⟨rfl, rfl⟩ := takeExactly_eq_ok.mp taken
    refine ⟨lawfulAt_byteString short, ?_⟩
    rw [byteString, List.append_assoc]

/-- A text whose bytes can be counted is read back. -/
theorem lawfulAt_text_of_lt {value : String} (short : value.utf8ByteSize < UInt64.size) :
    text.LawfulAt value :=
  lawfulAt_text short (Text.length_toUtf8 value) (Text.ofUtf8_toUtf8 value)

/-- Texts are an exact format. -/
theorem exact_text : text.Exact where
  size_pos value := Nat.add_pos_left (Nat.succ_pos 7) value.utf8ByteSize
  lawful value small := lawfulAt_text_of_lt (by
    have size : text.size value = 8 + value.utf8ByteSize := rfl
    omega)
  canonical {bytes value rest} read := by
    obtain ⟨⟨count, after⟩, counted, more⟩ := bind_eq_ok.mp read
    obtain ⟨⟨front, left⟩, taken, outcome⟩ := bind_eq_ok.mp more
    obtain ⟨short, rfl⟩ := readLength_eq_ok.mp counted
    obtain ⟨rfl, rfl⟩ := takeExactly_eq_ok.mp taken
    cases decoded : Text.ofUtf8 front with
    | error fault =>
      simp only [decoded] at outcome
      cases outcome
    | ok found =>
      simp only [decoded] at outcome
      obtain ⟨rfl, rfl⟩ := Prod.mk.inj (Except.ok.inj outcome)
      have same : Text.toUtf8 found = front := Text.toUtf8_of_ofUtf8 decoded
      have size : front.length = found.utf8ByteSize := by rw [← same, Text.length_toUtf8]
      refine ⟨lawfulAt_text_of_lt (size ▸ short), ?_⟩
      simp only [text, same, ← size, List.append_assoc]

/-- Namespaces are an exact format. -/
theorem exact_ns : ns.Exact where
  size_pos _ := Nat.succ_pos 28
  lawful value _ := lawfulAt_ns value
  canonical {bytes value rest} read := by
    obtain ⟨⟨front, after⟩, taken, outcome⟩ := bind_eq_ok.mp read
    obtain ⟨-, rfl⟩ := takeExactly_eq_ok.mp taken
    cases decoded : Namespace.ofBytes front with
    | error cause =>
      simp only [decoded] at outcome
      cases outcome
    | ok found =>
      simp only [decoded] at outcome
      obtain ⟨rfl, rfl⟩ := Prod.mk.inj (Except.ok.inj outcome)
      refine ⟨lawfulAt_ns found, ?_⟩
      simp only [ns, Namespace.bytes_of_ofBytes decoded]

/-- Two exact formats in order are exact. -/
theorem exact_pair {left : Format α} {right : Format β} (first : left.Exact)
    (second : right.Exact) : (pair left right).Exact where
  size_pos value := Nat.add_pos_left (first.size_pos value.1) _
  lawful value small := by
    have size : (pair left right).size value = left.size value.1 + right.size value.2 := rfl
    exact lawfulAt_pair (first.lawful value.1 (by omega)) (second.lawful value.2 (by omega))
  canonical {bytes value rest} read := by
    obtain ⟨⟨head, middle⟩, readHead, more⟩ := bind_eq_ok.mp read
    obtain ⟨⟨tail, last⟩, readTail, made⟩ := bind_eq_ok.mp more
    obtain ⟨rfl, rfl⟩ := Prod.mk.inj (Except.ok.inj made)
    obtain ⟨lawfulHead, rfl⟩ := first.canonical readHead
    obtain ⟨lawfulTail, rfl⟩ := second.canonical readTail
    refine ⟨lawfulAt_pair lawfulHead lawfulTail, ?_⟩
    rw [pair, List.append_assoc]

/-- An exact format of another representation is exact when the two conversions are inverse to
each other. -/
theorem exact_map {base : Format α} {read : α → β} {write : β → α} (exact : base.Exact)
    (back : ∀ value, read (write value) = value) (forth : ∀ value, write (read value) = value) :
    (base.map read write).Exact where
  size_pos value := exact.size_pos (write value)
  lawful value small := lawfulAt_map (exact.lawful (write value) small) (back value)
  canonical {bytes value rest} found := by
    obtain ⟨⟨inner, after⟩, readInner, made⟩ := bind_eq_ok.mp found
    obtain ⟨rfl, rfl⟩ := Prod.mk.inj (Except.ok.inj made)
    obtain ⟨lawful, rfl⟩ := exact.canonical readInner
    have same : write (read inner) = inner := forth inner
    refine ⟨lawfulAt_map (same.symm ▸ lawful) (back _), ?_⟩
    simp only [map, same]

/-- Values that are read one after the other are as many as asked for, come behind those read
before, and were written one after the other. -/
theorem decodeMany_canonical {item : Format α} (exact : item.Exact) {count : Nat}
    {earlier found : List α} {bytes rest : Bytes}
    (read : decodeMany item count earlier bytes = .ok (found, rest)) :
    ∃ values, found = earlier.reverse ++ values ∧ values.length = count ∧
      (∀ value ∈ values, item.LawfulAt value) ∧ bytes = values.flatMap item.encode ++ rest := by
  induction count generalizing earlier bytes with
  | zero =>
    obtain ⟨rfl, rfl⟩ := Prod.mk.inj (Except.ok.inj read)
    exact ⟨[], (List.append_nil _).symm, rfl, List.forall_mem_nil _, rfl⟩
  | succ count ih =>
    rw [decodeMany] at read
    cases head : item.decode bytes with
    | error fault =>
      rw [head] at read
      cases read
    | ok pair =>
      obtain ⟨value, after⟩ := pair
      rw [head] at read
      obtain ⟨lawful, rfl⟩ := exact.canonical head
      obtain ⟨values, rfl, length, each, rfl⟩ := ih read
      refine ⟨value :: values, ?_, congrArg Nat.succ length, List.forall_mem_cons.mpr
        ⟨lawful, each⟩, ?_⟩
      · rw [List.reverse_cons, List.append_assoc, List.singleton_append]
      · rw [List.flatMap_cons, List.append_assoc]

/-- A list is not longer than the encodings of its values together. -/
theorem length_le_sum_size {item : Format α} (exact : item.Exact) (values : List α) :
    values.length ≤ (values.map item.size).sum := by
  have positive : ∀ size ∈ values.map item.size, 1 ≤ size :=
    List.forall_mem_map.mpr fun value _ => exact.size_pos value
  have counted := List.length_le_sum_of_one_le _ positive
  rwa [List.length_map] at counted

/-- Lists of an exact format are an exact format. -/
theorem exact_list {item : Format α} (exact : item.Exact) : (list item).Exact where
  size_pos values := Nat.add_pos_left (Nat.succ_pos 7) _
  lawful values small := by
    have size := size_list item values
    have count := length_le_sum_size exact values
    refine lawfulAt_list (by omega) fun value member => exact.lawful value ?_
    have part : item.size value ≤ (values.map item.size).sum :=
      List.le_sum_of_mem (List.mem_map_of_mem member)
    omega
  canonical {bytes values rest} read := by
    obtain ⟨⟨count, after⟩, counted, more⟩ := bind_eq_ok.mp read
    obtain ⟨short, rfl⟩ := readLength_eq_ok.mp counted
    obtain ⟨found, rfl, rfl, each, rfl⟩ := decodeMany_canonical exact more
    refine ⟨lawfulAt_list short each, ?_⟩
    rw [list, List.append_assoc]

/-- The first of two alternatives is read back. -/
theorem lawfulAt_inl {left : Format α} {right : Format β} {value : α}
    (inner : left.LawfulAt value) : (either left right).LawfulAt (.inl value) where
  size_eq := by
    simp only [either, List.length_append, (lawfulAt_word32 0).size_eq, inner.size_eq]
    rfl
  decode_encode rest := by
    simp only [either, List.append_assoc]
    refine bind_eq_ok.mpr ⟨_, (lawfulAt_word32 0).decode_encode _, ?_⟩
    exact bind_eq_ok.mpr ⟨_, inner.decode_encode rest, rfl⟩

/-- Two exact formats as alternatives are exact. -/
theorem exact_either {left : Format α} {right : Format β} (first : left.Exact)
    (second : right.Exact) : (either left right).Exact where
  size_pos
    | .inl value => Nat.add_pos_left (Nat.succ_pos 3) (left.size value)
    | .inr value => Nat.add_pos_left (Nat.succ_pos 3) (right.size value)
  lawful
    | .inl value, small => lawfulAt_inl (first.lawful value (by
      have size : (either left right).size (.inl value) = 4 + left.size value := rfl
      omega))
    | .inr value, small => lawfulAt_inr (second.lawful value (by
      have size : (either left right).size (.inr value) = 4 + right.size value := rfl
      omega))
  canonical {bytes value rest} read := by
    obtain ⟨⟨tag, after⟩, readTag, more⟩ := bind_eq_ok.mp read
    obtain ⟨-, rfl⟩ := exact_word32.canonical readTag
    by_cases zero : tag = 0
    · obtain ⟨⟨inner, last⟩, readInner, made⟩ := bind_eq_ok.mp ((if_pos zero).symm.trans more)
      obtain ⟨rfl, rfl⟩ := Prod.mk.inj (Except.ok.inj made)
      obtain ⟨lawful, rfl⟩ := first.canonical readInner
      refine ⟨lawfulAt_inl lawful, ?_⟩
      rw [either, zero, List.append_assoc]
    · by_cases one : tag = 1
      · have branch := (if_pos one).symm.trans ((if_neg zero).symm.trans more)
        obtain ⟨⟨inner, last⟩, readInner, made⟩ := bind_eq_ok.mp branch
        obtain ⟨rfl, rfl⟩ := Prod.mk.inj (Except.ok.inj made)
        obtain ⟨lawful, rfl⟩ := second.canonical readInner
        refine ⟨lawfulAt_inr lawful, ?_⟩
        rw [either, one, List.append_assoc]
      · have unknown := (if_neg one).symm.trans ((if_neg zero).symm.trans more)
        cases unknown

/-- An exact format after marker bytes is exact. -/
theorem exact_marked {marker : Bytes} {item : Format α} (exact : item.Exact) :
    (marked marker item).Exact where
  size_pos value := Nat.add_pos_right _ (exact.size_pos value)
  lawful value small := by
    have size : (marked marker item).size value = marker.length + item.size value := rfl
    exact lawfulAt_marked (exact.lawful value (by omega))
  canonical {bytes value rest} read := by
    by_cases present : bytes.take marker.length = marker
    · have inner := (if_pos present).symm.trans read
      obtain ⟨lawful, split⟩ := exact.canonical inner
      refine ⟨lawfulAt_marked lawful, ?_⟩
      rw [marked, List.append_assoc, ← split]
      calc bytes = bytes.take marker.length ++ bytes.drop marker.length :=
            (List.take_append_drop _ _).symm
        _ = marker ++ bytes.drop marker.length := by rw [present]
    · have missing := (if_neg present).symm.trans read
      cases missing

/-- An encoding that starts another one is all of it. -/
theorem Exact.prefix_free {format : Format α} (exact : format.Exact) {bytes more : Bytes}
    {value other : α} (front : format.decode bytes = .ok (value, []))
    (whole : format.decode (bytes ++ more) = .ok (other, [])) : more = [] := by
  obtain ⟨lawful, encoded⟩ := exact.canonical front
  have again : format.decode (bytes ++ more) = .ok (value, more) := by
    rw [encoded, List.append_nil]
    exact lawful.decode_encode more
  have parts := Except.ok.inj (again.symm.trans whole)
  exact (Prod.mk.inj parts).2

end Format

end DataSquare
