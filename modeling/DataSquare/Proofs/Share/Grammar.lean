import DataSquare.Proofs.Share.Frame

/-!
# The grammar of sparse shares

A run of sparse shares is a row of items: padding shares, and sequences with content that each hold
a blob. A run is read as blobs exactly when it falls into items, and then the blobs are those of its
items in order. Every sequence ends where the length in its first share says, so nothing is
skipped, read twice or taken from what follows.
-/
namespace DataSquare

/-- Shares have room for the bytes they are needed for. -/
theorem le_room_of_sharesNeeded {first later length : Nat} (positive : 0 < later) :
    length ≤ first + (sharesNeeded first later length - 1) * later := by
  unfold sharesNeeded
  split
  · omega
  · split
    · omega
    · have reached := le_ceilDiv_mul (length - first) positive
      rw [Nat.add_sub_cancel_left]
      omega

namespace Share

/-- Padding shares are those that start a sequence without content. -/
theorem isPadding_iff {share : Share} : share.isPadding = true ↔ share.sequenceLength = some 0 :=
  beq_iff_eq

/-- A padding share declares a sequence without content. -/
theorem sequenceLength_padding (ns : Namespace) : (padding ns).sequenceLength = some 0 :=
  sequenceLength_build rfl

/-- A share is not compact when it stands in neither of the two namespaces of transactions. -/
theorem isCompact_eq_false_iff {share : Share} : share.isCompact = false ↔
    share.ns ≠ .ok Namespace.transaction ∧ share.ns ≠ .ok Namespace.payForBlob := by
  unfold isCompact
  cases share.ns with
  | error cause => simp
  | ok ns => simp

/-- A share outside the namespaces of transactions has content of a fixed size. -/
theorem length_content_of_sparse {share : Share} (sparse : share.isCompact = false) :
    share.content.length =
      if share.isSequenceStart then firstSparseContent else laterSparseContent := by
  rw [content, List.length_drop, share.length_eq, headerLength, sparse]
  cases share.isSequenceStart <;> rfl

/-- The later shares of a sequence are full of content. -/
theorem length_flatMap_content_of_later {shares : List Share}
    (sparse : ∀ share ∈ shares, share.isCompact = false)
    (later : ∀ share ∈ shares, share.isSequenceStart = false) :
    (shares.flatMap content).length = shares.length * laterSparseContent := by
  induction shares with
  | nil => rfl
  | cons share rest ih =>
    obtain ⟨own, others⟩ := List.forall_mem_cons.mp sparse
    obtain ⟨marked, unmarked⟩ := List.forall_mem_cons.mp later
    rw [List.flatMap_cons, List.length_append, ih others unmarked, length_content_of_sparse own,
      marked, List.length_cons, Nat.add_mul, Nat.one_mul, Nat.add_comm]
    rfl

/-- The contents of a sequence have room for as many bytes as its first share tells. -/
theorem Frame.length_le_content {ns : Namespace} {length : UInt32} {shares : List Share}
    (frame : Frame sparseSharesNeeded ns length shares)
    (sparse : ∀ share ∈ shares, share.isCompact = false) :
    length.toNat ≤ (shares.flatMap content).length := by
  obtain ⟨first, rest, rfl, declared, _⟩ := frame.exists_first
  obtain ⟨own, others⟩ := List.forall_mem_cons.mp sparse
  have start := isSequenceStart_of_sequenceLength declared
  have room : length.toNat ≤ firstSparseContent +
      (sparseSharesNeeded length.toNat - 1) * laterSparseContent :=
    le_room_of_sharesNeeded (by decide)
  rw [← frame.count, List.length_cons, Nat.add_sub_cancel] at room
  rw [List.flatMap_cons, List.length_append, length_content_of_sparse own, start, if_pos rfl,
    length_flatMap_content_of_later others frame.continued]
  exact room

end Share

namespace Sparse

open Share (Frame)

/-- Shares hold a blob: they are those of one sequence of `length` bytes in its namespace, with
its data at the front of their contents and its version in the first of them. -/
structure HoldsBlob (shares : List Share) (blob : Blob) (length : UInt32) : Prop where
  /-- The shares are those of one sequence in the namespace of the blob. -/
  frame : Frame sparseSharesNeeded blob.ns length shares
  /-- The sequence has content. -/
  filled : length ≠ 0
  /-- The data is as long as the first share tells. -/
  size : blob.data.length = length.toNat
  /-- The contents of the shares start with the data. -/
  front : blob.data <+: shares.flatMap Share.content
  /-- The first share has the version of the blob. -/
  version : shares.head?.map (fun share => share.info.version) = some blob.shareVersion

/-- What a run of sparse shares is made of. -/
inductive Item where
  /-- One share that starts a sequence without content. -/
  | padding (share : Share) (empty : share.sequenceLength = some 0)
  /-- The shares of a sequence that holds a blob. -/
  | sequence (shares : List Share) (blob : Blob) (length : UInt32)
    (holds : HoldsBlob shares blob length)

/-- The shares of an item. -/
def Item.shares : Item → List Share
  | .padding share _ => [share]
  | .sequence shares _ _ _ => shares

/-- The blob of an item that is no padding. -/
def Item.blob? : Item → Option Blob
  | .padding _ _ => none
  | .sequence _ blob _ _ => some blob

/-- A sequence with content takes a share. -/
theorem sparseSharesNeeded_toNat_pos {length : UInt32} (filled : length ≠ 0) :
    0 < sparseSharesNeeded length.toNat :=
  sparseSharesNeeded_pos fun nothing => filled (UInt32.toNat.inj nothing)

section Read

variable {offset : Nat} {own rest : List Share} {blob : Blob} {length : UInt32}

/-- Padding in front is skipped. -/
theorem parseFrom_padding {share : Share} (empty : share.sequenceLength = some 0) :
    parseFrom offset (share :: rest) = parseFrom (offset + 1) rest := by
  rw [parseFrom, if_pos (Share.isPadding_iff.mpr empty)]

/-- The shares of a blob are read as the blob and its data. -/
theorem HoldsBlob.readSequence_eq (holds : HoldsBlob own blob length) :
    readSequence own offset = .ok (blob.ns, blob.data) := by
  refine readSequence_eq_ok_iff.mpr ⟨length, { holds.frame with count := ?_ }, ?_⟩
  · rw [holds.frame.count]
    exact (Nat.max_eq_right (sparseSharesNeeded_toNat_pos holds.filled)).symm
  · rw [← holds.size]
    exact List.prefix_iff_eq_take.mp holds.front

/-- The shares of a blob in front are read as the blob, and what follows is read behind them. -/
theorem HoldsBlob.parseFrom_append (holds : HoldsBlob own blob length) :
    parseFrom offset (own ++ rest) =
      (parseFrom (offset + own.length) rest).map (blob :: ·) := by
  obtain ⟨first, later, rfl, declared, _⟩ := holds.frame.exists_first
  have version : first.info.version = blob.shareVersion := Option.some.inj holds.version
  have count : (first :: later).length = sparseSharesNeeded length.toNat := holds.frame.count
  have content : ¬ first.isPadding = true := by
    rw [Share.isPadding_iff, declared]
    exact mt Option.some.inj holds.filled
  have enough : ¬ (first :: (later ++ rest)).length < sparseSharesNeeded length.toNat := by
    rw [← count, ← List.cons_append, List.length_append]
    omega
  -- The sequence takes exactly the shares of the blob.
  have taken : (first :: (later ++ rest)).take (sparseSharesNeeded length.toNat) =
      first :: later := by
    rw [← count, ← List.cons_append, List.take_left]
  have behind : (later ++ rest).drop (sparseSharesNeeded length.toNat - 1) = rest := by
    rw [← count, List.length_cons, Nat.add_sub_cancel, List.drop_left]
  rw [List.cons_append, parseFrom, if_neg content]
  simp only [declared]
  rw [if_neg enough, taken, holds.readSequence_eq, count]
  dsimp only
  rw [behind, version]
  cases parseFrom (offset + sparseSharesNeeded length.toNat) rest <;> rfl

/-- Shares that are read as one sequence with content hold the blob that is made of it. -/
theorem holdsBlob_of_readSequence {first : Share} {later : List Share} {ns : Namespace}
    {data : Bytes} (declared : first.sequenceLength = some length)
    (filled : ¬ first.isPadding = true)
    (sparse : ∀ share ∈ first :: later, share.isCompact = false)
    (read : readSequence (first :: later) offset = .ok (ns, data)) :
    HoldsBlob (first :: later) ⟨ns, data, first.info.version⟩ length := by
  obtain ⟨told, frame, rfl⟩ := readSequence_eq_ok_iff.mp read
  obtain rfl : told = length :=
    Option.some.inj ((frame.declared : first.sequenceLength = some told).symm.trans declared)
  have nonzero : told ≠ 0 := by
    rintro rfl
    exact filled (Share.isPadding_iff.mpr declared)
  have exact : Frame sparseSharesNeeded ns told (first :: later) := by
    refine { frame with count := frame.count.trans ?_ }
    exact Nat.max_eq_right (sparseSharesNeeded_toNat_pos nonzero)
  exact ⟨exact, nonzero, List.length_take_of_le (exact.length_le_content sparse),
    List.take_prefix _ _, rfl⟩

end Read

/-- Items are read as their blobs. -/
theorem parseFrom_items (items : List Item) (offset : Nat) :
    parseFrom offset (items.flatMap Item.shares) = .ok (items.filterMap Item.blob?) := by
  induction items generalizing offset with
  | nil =>
    rw [List.flatMap_nil, parseFrom]
    rfl
  | cons item items ih =>
    rw [List.flatMap_cons]
    cases item with
    | padding share empty => exact (parseFrom_padding empty).trans (ih (offset + 1))
    | sequence shares blob length holds =>
      refine holds.parseFrom_append.trans ?_
      rw [ih]
      rfl

/-- Shares that are read as blobs fall into items. -/
theorem exists_items_of_parseFrom {offset : Nat} {shares : List Share} {blobs : List Blob}
    (sparse : ∀ share ∈ shares, share.isCompact = false)
    (read : parseFrom offset shares = .ok blobs) : ∃ items : List Item,
      items.flatMap Item.shares = shares ∧ items.filterMap Item.blob? = blobs := by
  fun_induction parseFrom offset shares generalizing blobs with
  | case1 offset =>
    obtain rfl := Except.ok.inj read
    exact ⟨[], rfl, rfl⟩
  | case2 offset share rest padding ih =>
    obtain ⟨items, shares, found⟩ := ih (List.forall_mem_cons.mp sparse).2 read
    exact ⟨.padding share (Share.isPadding_iff.mp padding) :: items,
      congrArg (share :: ·) shares, found⟩
  | case3 | case4 | case5 | case6 => contradiction
  | case7 offset share rest content length declared needed enough ns data taken later found =>
    rename_i ih
    have filled : length ≠ 0 := by
      rintro rfl
      exact content (Share.isPadding_iff.mpr declared)
    -- A sequence with content takes at least the share that it starts with.
    have parts : (share :: rest).take needed = share :: rest.take (needed - 1) :=
      List.take_cons (sparseSharesNeeded_toNat_pos filled)
    obtain ⟨own, others⟩ := List.forall_mem_cons.mp sparse
    rw [parts] at taken
    have holds := holdsBlob_of_readSequence declared content (List.forall_mem_cons.mpr
      ⟨own, fun other member => others other (List.mem_of_mem_take member)⟩) taken
    obtain ⟨items, shares, behind⟩ :=
      ih (fun other member => others other (List.mem_of_mem_drop member)) found
    obtain rfl := Except.ok.inj read
    refine ⟨.sequence _ _ length holds :: items, ?_, ?_⟩
    · rw [List.flatMap_cons, shares]
      exact congrArg (share :: ·) (List.take_append_drop _ rest)
    · rw [List.filterMap_cons, behind]
      rfl

/-- The shares that a blob is written to hold it. -/
theorem holdsBlob_shares {blob : Blob} (filled : blob.data ≠ []) (writable : blob.IsWritable)
    (sparse : (blob.ns == Namespace.transaction || blob.ns == Namespace.payForBlob) = false) :
    HoldsBlob blob.shares blob (UInt32.ofNat blob.data.length) := by
  have value : (UInt32.ofNat blob.data.length).toNat = blob.data.length :=
    UInt32.toNat_ofNat_of_lt' writable.1
  have contents := take_content_sharesOf blob.shareVersion blob.data sparse
  refine ⟨{ frame_sharesOf writable.1 with count := ?_ }, ?_, value.symm,
    List.prefix_iff_eq_take.mpr contents.symm, ?_⟩
  · rw [value]
    exact length_sharesOf filled
  · intro zero
    rw [zero] at value
    exact filled (List.length_eq_zero_iff.mp value.symm)
  · rw [Blob.shares, sharesOf, List.head?_cons, Option.map_some, Share.info_build,
      InfoByte.version_start writable.2]

/-- A run of sparse shares is read exactly when it falls into items, as the blobs of these. -/
theorem parse_eq_ok_iff_items {shares : List Share} {blobs : List Blob}
    (sparse : ∀ share ∈ shares,
      share.ns ≠ .ok Namespace.transaction ∧ share.ns ≠ .ok Namespace.payForBlob) :
    parse shares = .ok blobs ↔ ∃ items : List Item,
      items.flatMap Item.shares = shares ∧ items.filterMap Item.blob? = blobs := by
  constructor
  · exact exists_items_of_parseFrom fun share member =>
      Share.isCompact_eq_false_iff.mpr (sparse share member)
  · rintro ⟨items, rfl, rfl⟩
    exact parseFrom_items items 0

/-- A padding share and the two shares of a blob of 600 bytes are read as that blob. -/
theorem parse_eq_ok_iff_items_of_padded :
    let blob : Blob := ⟨Namespace.lowestUser, List.replicate 600 7, 0⟩
    blob.shares.length = 2 ∧
      (∀ share ∈ Share.padding blob.ns :: blob.shares,
        share.ns ≠ .ok Namespace.transaction ∧ share.ns ≠ .ok Namespace.payForBlob) ∧
      parse (Share.padding blob.ns :: blob.shares) = .ok [blob] := by
  intro blob
  have size : blob.data.length = 600 := List.length_replicate
  have filled : blob.data ≠ [] := List.ne_nil_of_length_eq_add_one size
  have holds := holdsBlob_shares filled ⟨by rw [size]; decide, by decide⟩ (by decide)
  have stands : ∀ share ∈ Share.padding blob.ns :: blob.shares, share.ns = .ok blob.ns :=
    List.forall_mem_cons.mpr ⟨Share.ns_build, fun _ => Blob.ns_of_mem_shares⟩
  have sparse : ∀ share ∈ Share.padding blob.ns :: blob.shares,
      share.ns ≠ .ok Namespace.transaction ∧ share.ns ≠ .ok Namespace.payForBlob := by
    intro share member
    rw [stands share member]
    decide
  refine ⟨?_, sparse, (parse_eq_ok_iff_items sparse).mpr
    ⟨[.padding _ (Share.sequenceLength_padding blob.ns), .sequence _ blob _ holds], ?_, rfl⟩⟩
  · rw [Blob.length_shares filled, Blob.shareCount, Blob.size, size]
    rfl
  · exact congrArg (Share.padding blob.ns :: ·) (List.append_nil blob.shares)

end Sparse

end DataSquare
