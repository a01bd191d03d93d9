import DataSquare.Proofs.Rounding
import DataSquare.Share.Basic

/-!
# The parts of a share

A share that is made of parts has these parts: its namespace, its info byte, the length of the
sequence it starts, its reserved bytes, and its content with zeros behind it. Contents are the
pieces of a byte string, which put together give it back.
-/
namespace DataSquare

/-- Zeros are put behind a byte string that does not fill the width. -/
theorem FixedBytes.bytes_fit {width : Nat} {bytes : Bytes} (fits : bytes.length ≤ width) :
    (fit width bytes).bytes = bytes ++ List.replicate (width - bytes.length) 0 := by
  have whole : (bytes ++ List.replicate (width - bytes.length) 0).length = width := by
    simp only [List.length_append, List.length_replicate]
    omega
  exact List.take_of_length_le (by omega)

/-- The pieces of a byte string put together. -/
theorem flatten_pieces (size : Nat) (bytes : Bytes) : (pieces size bytes).flatten = bytes := by
  fun_induction pieces size bytes with
  | case1 => rfl
  | case2 byte rest ih => rw [List.flatten_cons, ih, List.cons_append, List.take_append_drop]

/-- No piece is longer than asked for. -/
theorem length_le_of_mem_pieces {size : Nat} {bytes piece : Bytes} (positive : 0 < size)
    (member : piece ∈ pieces size bytes) : piece.length ≤ size := by
  fun_induction pieces size bytes with
  | case1 => contradiction
  | case2 byte rest ih =>
    rcases List.mem_cons.mp member with rfl | later
    · simp only [List.length_cons, List.length_take]
      omega
    · exact ih later

/-- There are as many pieces as it takes to hold a byte string. -/
theorem length_pieces {size : Nat} (positive : 0 < size) (bytes : Bytes) :
    (pieces size bytes).length = ceilDiv bytes.length size := by
  fun_induction pieces size bytes with
  | case1 => simp [ceilDiv]
  | case2 byte rest ih =>
    rw [List.length_cons, ih, List.length_drop, List.length_cons]
    apply Nat.le_antisymm
    · have more : 0 < ceilDiv (rest.length + 1) size := ceilDiv_pos positive (by omega)
      have reached := le_ceilDiv_mul (rest.length + 1) positive
      have smaller : ceilDiv (rest.length - (size - 1)) size ≤ ceilDiv (rest.length + 1) size - 1 :=
        ceilDiv_le (by rw [Nat.sub_mul]; omega)
      omega
    · apply ceilDiv_le
      have reached := le_ceilDiv_mul (rest.length - (size - 1)) positive
      rw [Nat.add_mul]
      omega

/-- Every piece but the last one is full. -/
theorem length_of_mem_pieces_dropLast {size : Nat} {bytes piece : Bytes} (positive : 0 < size)
    (member : piece ∈ (pieces size bytes).dropLast) : piece.length = size := by
  fun_induction pieces size bytes with
  | case1 => contradiction
  | case2 byte rest ih =>
    rcases later : pieces size (rest.drop (size - 1)) with _ | ⟨next, others⟩
    · rw [later] at member
      contradiction
    · rw [later, List.dropLast_cons_cons] at member
      rcases List.mem_cons.mp member with rfl | inside
      · have more : rest.drop (size - 1) ≠ [] := by
          intro nothing
          rw [nothing, pieces] at later
          contradiction
        have long := List.length_pos_iff.mpr more
        rw [List.length_drop] at long
        simp only [List.length_cons, List.length_take]
        omega
      · exact ih (later ▸ inside)

/-- Pieces with zeros after each, put together, start with the pieces put together, when only the
last piece has zeros. -/
theorem flatMap_padded_prefix {size : Nat} {parts : List Bytes}
    (full : ∀ part ∈ parts.dropLast, part.length = size) :
    parts.flatten <+: parts.flatMap fun part =>
      part ++ List.replicate (size - part.length) 0 := by
  induction parts with
  | nil => exact List.prefix_rfl
  | cons part parts ih =>
    rw [List.flatten_cons, List.flatMap_cons]
    cases parts with
    | nil => simp
    | cons next others =>
      rw [List.dropLast_cons_cons] at full
      rw [full part List.mem_cons_self, Nat.sub_self, List.replicate_zero, List.append_nil]
      exact (List.prefix_append_right_inj part).mpr
        (ih fun other member => full other (List.mem_cons_of_mem part member))

/-- A byte string is the front of its pieces put together, with zeros after each that does not fill
its share, when the first piece has another size than the later ones. -/
theorem prefix_padded_pieces {first later : Nat} (positive : 0 < later) (whole : Bytes) :
    whole <+: (whole.take first ++ List.replicate (first - (whole.take first).length) 0) ++
      (pieces later (whole.drop first)).flatMap fun piece =>
        piece ++ List.replicate (later - piece.length) 0 := by
  rcases Nat.lt_or_ge whole.length first with short | long
  · rw [List.take_of_length_le (Nat.le_of_lt short)]
    exact (List.prefix_append whole _).trans (List.prefix_append _ _)
  · rw [List.length_take, Nat.min_eq_left long, Nat.sub_self, List.replicate_zero,
      List.append_nil]
    have rest : (pieces later (whole.drop first)).flatten <+:
        (pieces later (whole.drop first)).flatMap fun piece =>
          piece ++ List.replicate (later - piece.length) 0 :=
      flatMap_padded_prefix fun piece member => length_of_mem_pieces_dropLast positive member
    rw [flatten_pieces] at rest
    conv_lhs => rw [← List.take_append_drop first whole]
    exact (List.prefix_append_right_inj _).mpr rest

namespace Share

variable {ns : Namespace} {info : InfoByte} {length reserved : Option UInt32} {content : Bytes}

/-- The number of bytes of the header that is made of parts. -/
theorem length_header : (header ns info length reserved).length =
    30 + (if length.isSome then 4 else 0) + (if reserved.isSome then 4 else 0) := by
  cases length <;> cases reserved <;> simp [header]

/-- A share starts with its header. -/
theorem take_build {count : Nat} (short : count ≤ (header ns info length reserved).length) :
    (build ns info length reserved content).bytes.take count =
      (header ns info length reserved).take count := by
  have bound : (header ns info length reserved).length ≤ 38 := by
    rw [length_header]
    split <;> split <;> omega
  change List.take count (List.take 512 ((header ns info length reserved ++ content) ++ _)) = _
  rw [List.take_take, Nat.min_eq_left (by omega), List.append_assoc,
    List.take_append_of_le_length short]

/-- A share that its content does not overflow is header, content and zeros. -/
theorem bytes_build (fits : (header ns info length reserved).length + content.length ≤ shareSize) :
    (build ns info length reserved content).bytes =
      header ns info length reserved ++ (content ++ List.replicate
        (shareSize - ((header ns info length reserved).length + content.length)) 0) := by
  rw [← List.length_append] at fits ⊢
  rw [← List.append_assoc]
  exact FixedBytes.bytes_fit fits

/-- A share that is made of parts has the namespace given. -/
@[simp] theorem ns_build : (build ns info length reserved content).ns = .ok ns := by
  have long : 29 ≤ (header ns info length reserved).length := by
    rw [length_header]
    omega
  have front : (header ns info length reserved).take 29 = ns.bytes := by
    simp only [header, List.append_assoc]
    rw [List.take_append_of_le_length (by simp), List.take_of_length_le (by simp)]
  rw [Share.ns, namespaceBytes, take_build long, front]
  exact Namespace.ofBytes_bytes ns

/-- A share that is made of parts has the info byte given. -/
@[simp] theorem info_build : (build ns info length reserved content).info = info := by
  have long : 30 ≤ (header ns info length reserved).length := by
    rw [length_header]
    omega
  have front : (header ns info length reserved).take 30 = ns.bytes ++ [info.value] := by
    simp only [header, List.append_assoc]
    rw [← List.append_assoc ns.bytes, List.take_append_of_le_length (by simp),
      List.take_of_length_le (by simp)]
  have entry : (build ns info length reserved content).bytes[29]? =
      (ns.bytes ++ [info.value])[29]? := by
    rw [← front, ← take_build long, List.getElem?_take_of_lt (by decide)]
  have first : ((build ns info length reserved content).bytes.drop 29).headD 0 = info.value := by
    rw [List.headD_eq_head?_getD, List.head?_drop, entry,
      List.getElem?_append_right (by simp)]
    simp
  exact congrArg InfoByte.mk first

/-- A share that is made of parts starts a sequence when its info byte says so. -/
@[simp] theorem isSequenceStart_build :
    (build ns info length reserved content).isSequenceStart = info.isSequenceStart := by
  rw [isSequenceStart, info_build]

/-- A share that starts a sequence has the length given. -/
theorem sequenceLength_build {count : UInt32} (start : info.isSequenceStart = true) :
    (build ns info (some count) reserved content).sequenceLength = some count := by
  have long : 34 ≤ (header ns info (some count) reserved).length := by
    rw [length_header]
    simp
  have front : (header ns info (some count) reserved).take 34 =
      (ns.bytes ++ [info.value]) ++ bigEndian 4 count.toNat := by
    simp only [header, Option.map_some, Option.getD_some]
    rw [List.take_append_of_le_length (by simp), List.take_of_length_le (by simp)]
  have field : ((build ns info (some count) reserved content).bytes.drop 30).take 4 =
      bigEndian 4 count.toNat := by
    rw [← List.drop_take (i := 30) (j := 34), take_build long, front,
      List.drop_append_of_le_length (by simp), List.drop_of_length_le (by simp),
      List.nil_append]
  rw [sequenceLength, isSequenceStart_build, if_pos start, field,
    ofBigEndian_bigEndian count.toNat_lt, UInt32.ofNat_toNat]

/-- A share is compact when its namespace is one of those of transactions. -/
theorem isCompact_build : (build ns info length reserved content).isCompact =
    (ns == Namespace.transaction || ns == Namespace.payForBlob) := by
  rw [isCompact, ns_build]

/-- The content of a share that is made of parts, when the header has exactly the fields that the
namespace and the info byte ask for. -/
theorem content_build (starts : info.isSequenceStart = length.isSome)
    (compact : (ns == Namespace.transaction || ns == Namespace.payForBlob) = reserved.isSome)
    (fits : (header ns info length reserved).length + content.length ≤ shareSize) :
    (build ns info length reserved content).content = content ++ List.replicate
      (shareSize - ((header ns info length reserved).length + content.length)) 0 := by
  have front : (build ns info length reserved content).headerLength =
      (header ns info length reserved).length := by
    rw [headerLength, isSequenceStart_build, isCompact_build, starts, compact, length_header]
  rw [Share.content, front, bytes_build fits, List.drop_left]

end Share

end DataSquare
