import DataSquare.Proofs.Outcome
import DataSquare.Proofs.Share.Parts
import DataSquare.Share.Compact

/-!
# Compact sequences

The length in front of a unit ends where its bytes say, so units that follow each other are told
apart, and no two lists of units make one stream. The contents of the shares of a sequence put
together start with its stream, whose length the first share tells. So the shares of a sequence
determine its units.
-/
namespace DataSquare

namespace Varint

/-- The groups of one integer are not the front of those of another one. -/
theorem encode_append_inj {left right : Nat} {rest other : Bytes}
    (same : encode left ++ rest = encode right ++ other) : left = right ∧ rest = other := by
  induction left using Nat.strong_induction_on generalizing right with
  | _ left ih =>
    have bytes : ∀ {one two : Nat}, one < 256 → two < 256 →
        UInt8.ofNat one = UInt8.ofNat two → one = two := by
      intro one two small short equal
      have values := congrArg UInt8.toNat equal
      rwa [UInt8.toNat_ofNat_of_lt' small, UInt8.toNat_ofNat_of_lt' short] at values
    rw [encode, encode.eq_def right] at same
    by_cases shortLeft : left < 128
    · rw [if_pos shortLeft] at same
      by_cases shortRight : right < 128
      · rw [if_pos shortRight] at same
        obtain ⟨first, rests⟩ := List.cons.inj same
        exact ⟨bytes (by omega) (by omega) first, rests⟩
      · rw [if_neg shortRight] at same
        have first := bytes (by omega) (by omega) (List.cons.inj same).1
        omega
    · rw [if_neg shortLeft] at same
      by_cases shortRight : right < 128
      · rw [if_pos shortRight] at same
        have first := bytes (by omega) (by omega) (List.cons.inj same).1
        omega
      · rw [if_neg shortRight] at same
        obtain ⟨first, tails⟩ := List.cons.inj same
        obtain ⟨quotients, rests⟩ := ih (left / 128) (by omega) tails
        have remainders := bytes (by omega) (by omega) first
        exact ⟨by omega, rests⟩

end Varint

namespace Compact

/-- A unit with its length in front is not the front of another one. -/
theorem delimited_append_inj {left right rest other : Bytes}
    (same : delimited left ++ rest = delimited right ++ other) : left = right ∧ rest = other := by
  rw [delimited, delimited, List.append_assoc, List.append_assoc] at same
  obtain ⟨lengths, tails⟩ := Varint.encode_append_inj same
  exact List.append_inj tails lengths

/-- A unit with its length in front is not empty. -/
theorem delimited_ne_nil (unit : Bytes) : delimited unit ≠ [] := by
  rw [delimited, Varint.encode]
  split <;> exact List.cons_ne_nil _ _

/-- A unit is as long as its bytes and its length in front are. -/
theorem length_delimited (unit : Bytes) :
    (delimited unit).length = Varint.size unit.length + unit.length := by
  rw [delimited, List.length_append, Varint.length_encode]

/-- The stream of units starts with the first one. -/
@[simp] theorem stream_cons (unit : Bytes) (units : List Bytes) :
    stream (unit :: units) = delimited unit ++ stream units := rfl

/-- The stream of one unit is that unit with its length. -/
theorem length_stream_singleton (unit : Bytes) :
    (stream [unit]).length = Varint.size unit.length + unit.length := by
  rw [stream_cons, List.length_append, length_delimited]
  rfl

/-- No two lists of units make one stream. -/
theorem stream_injective {left right : List Bytes} (same : stream left = stream right) :
    left = right := by
  induction left generalizing right with
  | nil =>
    cases right with
    | nil => rfl
    | cons unit units =>
      rw [stream_cons] at same
      exact absurd (List.append_eq_nil_iff.mp same.symm).1 (delimited_ne_nil unit)
  | cons unit units ih =>
    cases right with
    | nil =>
      rw [stream_cons] at same
      exact absurd (List.append_eq_nil_iff.mp same).1 (delimited_ne_nil unit)
    | cons other others =>
      rw [stream_cons, stream_cons] at same
      obtain ⟨rfl, rests⟩ := delimited_append_inj same
      rw [ih rests]

/-- The contents of the shares of a stream that is not empty. -/
def contents (whole : Bytes) : List Bytes :=
  whole.take firstCompactContent :: pieces laterCompactContent (whole.drop firstCompactContent)

/-- The sequence of units whose stream fits its length field. -/
def sequenceOf (ns : Namespace) (units : List Bytes) : Sequence :=
  if units.isEmpty then .empty
  else
    ⟨(contents (stream units)).zipIdx.map fun (content, share) =>
      shareAt ns (stream units).length ((boundaries 0 units).take units.length) content share,
      List.zipWith rangeOf (boundaries 0 units) ((boundaries 0 units).drop 1)⟩

variable {ns : Namespace} {units : List Bytes}

/-- What is counted of a stream is its length. -/
theorem streamLength_eq (units : List Bytes) : streamLength units = (stream units).length := by
  rw [streamLength, stream, List.length_flatMap, List.sum_eq_foldr, List.foldr_map]
  simp only [delimited, List.length_append]

/-- Units are written exactly when the length of their stream fits its field. -/
theorem split_eq_ok {sequence : Sequence} : split ns units = .ok sequence ↔
    (stream units).length < UInt32.size ∧ sequence = sequenceOf ns units := by
  rw [split, streamLength_eq]
  unfold sequenceOf
  by_cases empty : units.isEmpty
  · rw [if_pos empty, if_pos empty, List.isEmpty_iff.mp empty]
    simp [stream, eq_comm]
  · rw [if_neg empty, if_neg empty]
    by_cases short : (stream units).length < UInt32.size
    · simp [short, contents, eq_comm]
    · simp [short]

/-- The sequence of some units has a first share and then one for each later piece. -/
theorem shares_sequenceOf (nonempty : units ≠ []) : (sequenceOf ns units).shares =
    shareAt ns (stream units).length ((boundaries 0 units).take units.length)
        ((stream units).take firstCompactContent) 0 ::
      ((pieces laterCompactContent ((stream units).drop firstCompactContent)).zipIdx 1).map
        fun (content, share) => shareAt ns (stream units).length
          ((boundaries 0 units).take units.length) content share := by
  rw [sequenceOf, if_neg (by simpa using nonempty)]
  rfl

/-- Every share of a sequence is made for its position from a piece of the stream. -/
theorem exists_shareAt_of_getElem? {share : Share} {index : Nat}
    (entry : (sequenceOf ns units).shares[index]? = some share) :
    ∃ content, share = shareAt ns (stream units).length
      ((boundaries 0 units).take units.length) content index := by
  by_cases empty : units = []
  · subst empty
    cases entry
  · rw [sequenceOf, if_neg (by simpa using empty), List.getElem?_map, List.getElem?_zipIdx,
      Option.map_map, Option.map_eq_some_iff] at entry
    obtain ⟨content, _, same⟩ := entry
    simp only [Function.comp_apply, Nat.zero_add] at same
    exact ⟨content, same.symm⟩

/-- Every share of a sequence stands in its namespace. -/
theorem ns_of_mem_sequenceOf {share : Share} (member : share ∈ (sequenceOf ns units).shares) :
    share.ns = .ok ns := by
  obtain ⟨index, entry⟩ := List.mem_iff_getElem?.mp member
  obtain ⟨content, rfl⟩ := exists_shareAt_of_getElem? entry
  exact Share.ns_build

/-- A stream takes as many shares as its length needs. -/
theorem length_sequenceOf :
    (sequenceOf ns units).shares.length = compactSharesNeeded (stream units).length := by
  by_cases noUnits : units = []
  · subst noUnits
    rfl
  · have positive : 0 < (stream units).length := by
      rw [List.length_pos_iff]
      exact fun empty => noUnits (stream_injective (empty : stream units = stream []))
    rw [shares_sequenceOf noUnits, List.length_cons, List.length_map, List.length_zipIdx,
      length_pieces (by decide), List.length_drop, compactSharesNeeded, sharesNeeded,
      if_neg (show (stream units).length ≠ 0 by omega)]
    split
    · rename_i short
      rw [Nat.sub_eq_zero_of_le short]
      rfl
    · omega

/-- A stream that needs one share has one, in its namespace. -/
theorem exists_share_sequenceOf (ns : Namespace) {units : List Bytes}
    (needed : compactSharesNeeded (stream units).length = 1) :
    ∃ share, (sequenceOf ns units).shares = [share] ∧ share.ns = .ok ns := by
  obtain ⟨share, alone⟩ := List.length_eq_one_iff.mp
    (length_sequenceOf.trans needed : (sequenceOf ns units).shares.length = 1)
  exact ⟨share, alone, ns_of_mem_sequenceOf (alone ▸ List.mem_singleton_self share)⟩

/-- The first share of a sequence tells the length of the stream. -/
theorem sequenceLength_shareAt_zero {length : Nat} {starts : List Nat} {content : Bytes} :
    (shareAt ns length starts content 0).sequenceLength = some (UInt32.ofNat length) :=
  Share.sequenceLength_build rfl

/-- The content of the first share is the front of the stream, and zeros after one that ends in
it. -/
theorem content_shareAt_zero {length : Nat} {starts : List Nat} {content : Bytes}
    (compact : (ns == Namespace.transaction || ns == Namespace.payForBlob) = true)
    (short : content.length ≤ firstCompactContent) :
    (shareAt ns length starts content 0).content =
      content ++ List.replicate (firstCompactContent - content.length) 0 := by
  have header : (Share.header ns ⟨1⟩ (some (UInt32.ofNat length))
      (some (UInt32.ofNat (reservedFor starts 0)))).length = 38 := by
    rw [Share.length_header]
    rfl
  rw [shareAt, if_pos rfl, if_pos rfl, Share.content_build rfl compact
    (by rw [header]; exact Nat.add_le_add_left short 38), header]
  change content ++ List.replicate (512 - (38 + content.length)) 0 =
    content ++ List.replicate (474 - content.length) 0
  congr 2
  omega

/-- The content of a later share is its piece of the stream, and zeros after the last piece. -/
theorem content_shareAt_later {length share : Nat} {starts : List Nat} {content : Bytes}
    (later : share ≠ 0)
    (compact : (ns == Namespace.transaction || ns == Namespace.payForBlob) = true)
    (short : content.length ≤ laterCompactContent) :
    (shareAt ns length starts content share).content =
      content ++ List.replicate (laterCompactContent - content.length) 0 := by
  have header : (Share.header ns ⟨0⟩ none
      (some (UInt32.ofNat (reservedFor starts share)))).length = 34 := by
    rw [Share.length_header]
    rfl
  rw [shareAt, if_neg later, if_neg later, Share.content_build rfl compact
    (by rw [header]; exact Nat.add_le_add_left short 34), header]
  change content ++ List.replicate (512 - (34 + content.length)) 0 =
    content ++ List.replicate (478 - content.length) 0
  congr 2
  omega

/-- The contents of the shares of a sequence, put together, start with its stream. -/
theorem take_content_sequenceOf
    (compact : (ns == Namespace.transaction || ns == Namespace.payForBlob) = true)
    (nonempty : units ≠ []) :
    ((sequenceOf ns units).shares.flatMap Share.content).take (stream units).length =
      stream units := by
  symm
  have later : (((pieces laterCompactContent
        ((stream units).drop firstCompactContent)).zipIdx 1).flatMap fun entry =>
          (shareAt ns (stream units).length ((boundaries 0 units).take units.length) entry.1
            entry.2).content) =
      (pieces laterCompactContent ((stream units).drop firstCompactContent)).flatMap fun piece =>
        piece ++ List.replicate (laterCompactContent - piece.length) 0 := by
    conv_rhs => rw [← List.zipIdx_map_fst 1 (pieces _ _), List.flatMap_map]
    refine List.flatMap_congr fun entry member => content_shareAt_later ?_ compact
      (length_le_of_mem_pieces (by decide) (List.fst_mem_of_mem_zipIdx member))
    have positive := List.le_snd_of_mem_zipIdx member
    omega
  rw [← List.prefix_iff_eq_take, shares_sequenceOf nonempty, List.flatMap_cons,
    content_shareAt_zero compact (List.length_take_le _ _), List.flatMap_map, later]
  exact prefix_padded_pieces (by decide) (stream units)

/-- The shares of a sequence determine its units. -/
theorem units_eq_of_shares_eq {others : List Bytes}
    (compact : (ns == Namespace.transaction || ns == Namespace.payForBlob) = true)
    (short : (stream units).length < UInt32.size)
    (otherShort : (stream others).length < UInt32.size)
    (same : (sequenceOf ns units).shares = (sequenceOf ns others).shares) : units = others := by
  by_cases noUnits : units = []
  · by_cases noOthers : others = []
    · rw [noUnits, noOthers]
    · rw [noUnits, shares_sequenceOf noOthers] at same
      exact absurd same.symm (List.cons_ne_nil _ _)
  · by_cases noOthers : others = []
    · rw [noOthers, shares_sequenceOf noUnits] at same
      exact absurd same (List.cons_ne_nil _ _)
    · have heads := congrArg List.head? same
      rw [shares_sequenceOf noUnits, shares_sequenceOf noOthers, List.head?_cons, List.head?_cons,
        Option.some.injEq] at heads
      have lengths := congrArg Share.sequenceLength heads
      rw [sequenceLength_shareAt_zero, sequenceLength_shareAt_zero] at lengths
      have words := congrArg UInt32.toNat (Option.some.inj lengths)
      rw [UInt32.toNat_ofNat_of_lt' short, UInt32.toNat_ofNat_of_lt' otherShort] at words
      apply stream_injective
      rw [← take_content_sequenceOf compact noUnits, ← take_content_sequenceOf compact noOthers, same,
        words]

end Compact

end DataSquare
