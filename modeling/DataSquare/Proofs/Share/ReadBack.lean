import DataSquare.Proofs.Share.Grammar

/-!
# Reading sequences back

What is written as shares is read back. The length in front of a unit is read up to its last group,
so the units of a stream come back one after the other, and every check of a compact sequence passes
on the shares that hold the stream. In a run of sparse shares padding is skipped, and each blob is
read by as many shares as it was written to, whatever follows it.
-/
namespace DataSquare

namespace Varint

/-- Reading the groups of an integer adds it, at the shift reached so far, to what was read. -/
theorem decodeFrom_encode (value : Nat) (rest : Bytes) (shift base : Nat)
    (fits : base + value * 2 ^ shift < UInt64.size) :
    decodeFrom shift base (encode value ++ rest) = some (base + value * 2 ^ shift, rest) := by
  induction value using Nat.strong_induction_on generalizing shift base with
  | _ value ih =>
    rw [encode]
    by_cases last : value < 128
    · have byte : (UInt8.ofNat value).toNat = value :=
        UInt8.toNat_ofNat_of_lt' (Nat.lt_trans last (by decide))
      have unmarked : UInt8.ofNat value < 128 := by
        rw [UInt8.lt_iff_toNat_lt, byte]
        exact last
      rw [if_pos last, List.singleton_append, decodeFrom, if_pos unmarked, byte,
        Nat.mod_eq_of_lt last, Nat.shiftLeft_eq, Nat.mod_eq_of_lt fits]
    · have small : value % 128 + 128 < UInt8.size := by
        change value % 128 + 128 < 256
        omega
      have byte : (UInt8.ofNat (value % 128 + 128)).toNat = value % 128 + 128 :=
        UInt8.toNat_ofNat_of_lt' small
      have marked : ¬ UInt8.ofNat (value % 128 + 128) < 128 := by
        rw [UInt8.lt_iff_toNat_lt, byte]
        exact Nat.not_lt.mpr (Nat.le_add_left 128 _)
      have group : (value % 128 + 128) % 128 = value % 128 := by omega
      -- Another group follows, so the value reaches seven bits above the shift.
      have above : 128 * 2 ^ shift ≤ value * 2 ^ shift :=
        Nat.mul_le_mul_right _ (Nat.le_of_not_lt last)
      have room : ¬ 63 ≤ shift := by
        intro high
        have power : 2 ^ 63 ≤ 2 ^ shift := Nat.pow_le_pow_right (by decide) high
        have words : UInt64.size = 2 * 2 ^ 63 := by decide
        omega
      have parts : value % 128 * 2 ^ shift + value / 128 * 2 ^ (shift + 7) = value * 2 ^ shift := by
        have whole := Nat.mod_add_div value 128
        conv_rhs => rw [← whole, Nat.add_mul]
        rw [Nat.pow_add]
        ring
      have front : base + value % 128 * 2 ^ shift < UInt64.size := by omega
      rw [if_neg last, List.cons_append, decodeFrom, if_neg marked, if_neg room, byte, group,
        Nat.shiftLeft_eq, Nat.mod_eq_of_lt front]
      rw [ih (value / 128) (by omega) (shift + 7) _ (by omega), Nat.add_assoc, parts]

/-- An integer of 64 bits is read back from the front. -/
theorem decode_encode {value : Nat} (fits : value < UInt64.size) (rest : Bytes) :
    decode (encode value ++ rest) = some (value, rest) := by
  have whole := decodeFrom_encode value rest 0 0 (by omega)
  rwa [Nat.pow_zero, Nat.mul_one, Nat.zero_add] at whole

end Varint

namespace Compact

/-- A unit is read from the front of a stream. -/
theorem readUnits_delimited {unit : Bytes} (short : unit.length < UInt64.size) (rest : Bytes)
    {units : List Bytes} (later : readUnits rest = .ok units) :
    readUnits (delimited unit ++ rest) = .ok (unit :: units) := by
  have nonempty : (delimited unit ++ rest).isEmpty = false := by
    rw [List.isEmpty_eq_false_iff]
    exact List.append_ne_nil_of_left_ne_nil (delimited_ne_nil unit) rest
  have front : Varint.decode (delimited unit ++ rest) =
      Option.some (unit.length, unit ++ rest) := by
    rw [delimited, List.append_assoc]
    exact Varint.decode_encode short _
  rw [readUnits, if_neg (by simp [nonempty])]
  split
  · rename_i failed
    rw [front] at failed
    contradiction
  · rename_i length tail found
    rw [front] at found
    obtain ⟨rfl, rfl⟩ := Prod.mk.inj (Option.some.inj found)
    rw [List.take_left, if_neg (Nat.lt_irrefl _), List.drop_left, later]

/-- The units of a stream are read back. -/
theorem readUnits_stream {units : List Bytes} (short : (stream units).length < UInt64.size) :
    readUnits (stream units) = .ok units := by
  induction units with
  | nil =>
    rw [readUnits]
    rfl
  | cons unit units ih =>
    rw [stream_cons, List.length_append, length_delimited] at short
    rw [stream_cons]
    exact readUnits_delimited (by omega) _ (ih (by omega))

/-- A share has no more content than bytes. -/
theorem contentSize_le (share : Nat) : contentSize share ≤ shareSize := by
  unfold contentSize
  split <;> decide

/-- The position in the reserved bytes of a share is behind its header, or there is none. -/
theorem reservedFor_range (starts : List Nat) (share : Nat) :
    reservedFor starts share = 0 ∨ shareSize - contentSize share ≤ reservedFor starts share ∧
      reservedFor starts share < shareSize := by
  have width := contentSize_le share
  unfold reservedFor
  dsimp only
  cases found : starts.find? fun start => contentStart share ≤ start &&
      start < contentStart share + contentSize share with
  | none => exact .inl rfl
  | some start =>
    have inside := List.find?_some found
    simp only [Bool.and_eq_true, decide_eq_true_eq] at inside
    dsimp only
    omega

/-- The position in the reserved bytes of a share fits them. -/
theorem toNat_reservedFor (starts : List Nat) (share : Nat) :
    (UInt32.ofNat (reservedFor starts share)).toNat = reservedFor starts share := by
  have range := reservedFor_range starts share
  have words : shareSize < UInt32.size := by decide
  exact UInt32.toNat_ofNat_of_lt' (by omega)

end Compact

namespace Share

variable {ns : Namespace} {info : InfoByte} {length : Option UInt32} {content : Bytes}

/-- A compact share has the reserved bytes given. -/
theorem reservedBytes_build {reserved : UInt32} (starts : info.isSequenceStart = length.isSome)
    (compact : (ns == Namespace.transaction || ns == Namespace.payForBlob) = true) :
    (build ns info length (some reserved) content).reservedBytes = some reserved := by
  have long := @length_header ns info length (some reserved)
  have width : (build ns info length (some reserved) content).headerLength =
      (header ns info length (some reserved)).length := by
    rw [headerLength, isSequenceStart_build, isCompact_build, starts, compact, length_header]
    rfl
  -- The reserved bytes are the last ones of the header.
  have field : ((build ns info length (some reserved) content).bytes.drop
      ((header ns info length (some reserved)).length - 4)).take 4 =
        bigEndian 4 reserved.toNat := by
    have whole : (build ns info length (some reserved) content).bytes.take
        (header ns info length (some reserved)).length = header ns info length (some reserved) := by
      rw [take_build (Nat.le_refl _), List.take_length]
    have front : header ns info length (some reserved) = (ns.bytes ++ [info.value] ++
        (length.map fun count => bigEndian 4 count.toNat).getD []) ++
          bigEndian 4 reserved.toNat := rfl
    have place : (header ns info length (some reserved)).length - 4 =
        (ns.bytes ++ [info.value] ++
          (length.map fun count => bigEndian 4 count.toNat).getD []).length := by
      rw [front, List.length_append, length_bigEndian, Nat.add_sub_cancel]
    have enough : (header ns info length (some reserved)).length =
        (header ns info length (some reserved)).length - 4 + 4 := by
      rw [Nat.sub_add_cancel]
      rw [front, List.length_append, length_bigEndian]
      exact Nat.le_add_left 4 _
    rw [List.take_drop, ← enough, whole, place]
    conv_lhs => rw [front]
    exact List.drop_left
  rw [reservedBytes, isCompact_build, if_pos compact, width, field,
    ofBigEndian_bigEndian reserved.toNat_lt, UInt32.ofNat_toNat]

end Share

namespace Compact

variable {ns : Namespace} {length share : Nat} {starts : List Nat} {content : Bytes}

section Checks

variable (compact : (ns == Namespace.transaction || ns == Namespace.payForBlob) = true)
include compact

/-- The header of a share ends where its content starts. -/
theorem headerLength_shareAt :
    (shareAt ns length starts content share).headerLength = shareSize - contentSize share := by
  have isCompact : (shareAt ns length starts content share).isCompact = true := by
    rw [shareAt, Share.isCompact_build]
    exact compact
  rw [Share.headerLength, isCompact, isSequenceStart_shareAt, contentSize]
  by_cases first : share = 0
  · rw [decide_eq_true first, if_pos first]
    rfl
  · rw [decide_eq_false first, if_neg first]
    rfl

/-- The reserved bytes of a share point at the first unit that starts in it. -/
theorem reservedBytes_shareAt : (shareAt ns length starts content share).reservedBytes =
    some (UInt32.ofNat (reservedFor starts share)) := by
  rw [shareAt]
  refine Share.reservedBytes_build ?_ compact
  by_cases first : share = 0
  · rw [if_pos first, if_pos first]
    rfl
  · rw [if_neg first, if_neg first]
    rfl

/-- The reserved bytes of a share point behind its header if at all. -/
theorem pointsInside_shareAt : (shareAt ns length starts content share).PointsInside := by
  rw [Share.PointsInside, reservedBytes_shareAt compact, headerLength_shareAt compact,
    Option.getD_some, toNat_reservedFor]
  exact (reservedFor_range starts share).imp_left fun nothing => congrArg UInt32.ofNat nothing

/-- Units that are written as a sequence are read back from its shares. -/
theorem parse_sequenceOf {units : List Bytes} (nonempty : units ≠ [])
    (short : (stream units).length < UInt32.size) :
    parse (sequenceOf ns units).shares = .ok units := by
  refine parse_eq_ok_iff.mpr ⟨ns, _, frame_sequenceOf nonempty short, ?_, ?_⟩
  · intro share member
    obtain ⟨index, entry⟩ := List.mem_iff_getElem?.mp member
    obtain ⟨content, rfl⟩ := exists_shareAt_of_getElem? entry
    exact pointsInside_shareAt compact
  · rw [UInt32.toNat_ofNat_of_lt' short, take_content_sequenceOf compact nonempty]
    exact readUnits_stream (Nat.lt_trans short (by decide))

end Checks

end Compact

namespace Sparse

/-- Whether a run of sparse shares is read as blobs, wherever it stands. -/
def ReadsAs (shares : List Share) (blobs : List Blob) : Prop :=
  ∀ offset, parseFrom offset shares = .ok blobs

/-- No shares are no blobs. -/
theorem ReadsAs.nil : ReadsAs [] [] := fun offset => by rw [parseFrom]

/-- Padding in front is skipped. -/
theorem ReadsAs.padding {shares : List Share} {blobs : List Blob} (reads : ReadsAs shares blobs)
    (ns : Namespace) (count : Nat) :
    ReadsAs (List.replicate count (Share.padding ns) ++ shares) blobs := by
  induction count with
  | zero => exact reads
  | succ count ih =>
    intro offset
    rw [List.replicate_succ, List.cons_append, parseFrom_padding (Share.sequenceLength_padding ns)]
    exact ih (offset + 1)

/-- A blob in front is read first. -/
theorem ReadsAs.cons {shares : List Share} {blobs : List Blob} (reads : ReadsAs shares blobs)
    {blob : Blob} (filled : blob.data ≠ []) (writable : blob.IsWritable)
    (sparse : (blob.ns == Namespace.transaction || blob.ns == Namespace.payForBlob) = false) :
    ReadsAs (blob.shares ++ shares) (blob :: blobs) := by
  intro offset
  rw [(holdsBlob_shares filled writable sparse).parseFrom_append, reads]
  rfl

/-- Data that is written as a sequence is read back from its shares. -/
theorem readSequence_sharesOf {ns : Namespace} (version : UInt8) {data : Bytes}
    (short : data.length < UInt32.size)
    (sparse : (ns == Namespace.transaction || ns == Namespace.payForBlob) = false)
    (offset : Nat) : readSequence (sharesOf ns version data) offset = .ok (ns, data) := by
  refine readSequence_eq_ok_iff.mpr ⟨_, frame_sharesOf short, ?_⟩
  rw [UInt32.toNat_ofNat_of_lt' short, take_content_sharesOf version data sparse]

end Sparse

end DataSquare
