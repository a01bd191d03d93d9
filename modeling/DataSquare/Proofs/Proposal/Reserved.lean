import DataSquare.Proofs.Proposal.Classified
import DataSquare.Proofs.Proposal.Interleaving
import DataSquare.Proofs.Square.Packing

/-!
# The shares kept free for transactions

An index wrapper is as long as is counted for it before the places of its blobs are known, so the
compact shares of a block are those that the totals of its transactions count. A layout that keeps
the counted shares of all candidates free has room for them, whichever of the candidates it places.
-/
namespace DataSquare

/-- An index wrapper with a share index for each blob is as long as is counted for it, wherever the
blobs are placed. -/
theorem BlobCandidate.length_wrapper (content : BlobCandidate) {indexes : List UInt32}
    (each : indexes.length = content.blobs.length) {raw : Bytes}
    (written : IndexWrapper.toBytes ⟨content.tx, indexes⟩ = .ok raw) :
    raw.length = content.wrappedLength := by
  obtain ⟨_, _, length⟩ := IndexWrapper.ofBytes_of_toBytes written
  rw [length, each, BlobCandidate.wrappedLength]

namespace Layout

variable {layout : Layout} {candidates : List Candidate}

/-- What the placed transactions of a layout take. -/
def placedUsage (layout : Layout) : Usage :=
  Usage.ofCandidates (layout.placed.map fun placed => .blob placed.candidate)

/-- The placed transactions take the bytes of their index wrappers. -/
theorem wrapperBytes_placedUsage (layout : Layout) : layout.placedUsage.wrapperBytes =
    ((layout.placed.map PlacedTx.candidate).map fun candidate =>
      Usage.delimitedLength candidate.wrappedLength).sum := by
  have listed : (layout.placed.map fun placed => Candidate.blob placed.candidate).filterMap
      Candidate.blob? = layout.placed.map PlacedTx.candidate := by
    rw [List.filterMap_map]
    exact congrFun List.filterMap_eq_map layout.placed
  rw [placedUsage, (Usage.bytes_ofCandidates _).2, listed]

/-- When nothing is removed, the placed transactions take the bytes of all index wrappers. -/
theorem wrapperBytes_placedUsage_eq {squareSize start : Nat}
    (made : finalize? squareSize start candidates = some layout) (keepsAll : layout.removed = []) :
    layout.placedUsage.wrapperBytes = (Usage.ofCandidates candidates).wrapperBytes := by
  rw [wrapperBytes_placedUsage, (Usage.bytes_ofCandidates candidates).2,
    map_candidate_placed made keepsAll]

/-- The compact shares of the block of a layout are those that are counted for its candidates. -/
structure Counted (layout : Layout) (candidates : List Candidate) (txShares : TxShares) : Prop where
  /-- There are as many shares of ordinary transactions as are counted. -/
  ordinary : txShares.ordinary.shares.length = (Usage.ofCandidates candidates).txShares
  /-- There are as many shares of index wrappers as are counted for the placed transactions. -/
  placed : txShares.wrapped.shares.length = layout.placedUsage.wrapperShares
  /-- There are no more than are counted for all candidates. -/
  wrapped : txShares.wrapped.shares.length ≤ (Usage.ofCandidates candidates).wrapperShares
  /-- There are as many as are counted for all candidates when none is removed. -/
  all : layout.removed = [] →
    txShares.wrapped.shares.length = (Usage.ofCandidates candidates).wrapperShares
  /-- No blob starts inside the compact shares. -/
  behind : ∀ placed ∈ layout.placed, ∀ index ∈ placed.shareIndexes,
    txShares.length ≤ index.toNat

section Settled

variable {entries : List (Nat × Slot)}
  (settled : layout.Settled (candidates.filterMap Candidate.blob?) entries)
include settled

/-- The block of a settled layout encodes exactly when every index wrapper is small enough. -/
theorem exists_blockTxs_iff : (∃ txs, layout.blockTxs = .ok txs) ↔
    ∀ placed ∈ layout.placed, placed.candidate.wrappedLength ≤ Wire.sizeLimit := by
  rw [← settled.exists_wrappers_iff]
  constructor
  · rintro ⟨txs, encoded⟩
    obtain ⟨wrappers, written, _⟩ := map_eq_ok.mp encoded
    exact ⟨wrappers, written⟩
  · rintro ⟨wrappers, written⟩
    exact ⟨_, map_eq_ok.mpr ⟨wrappers, written, rfl⟩⟩

/-- The placed transactions do not take more bytes for their index wrappers than all candidates. -/
theorem wrapperBytes_placedUsage_le :
    layout.placedUsage.wrapperBytes ≤ (Usage.ofCandidates candidates).wrapperBytes := by
  rw [wrapperBytes_placedUsage, (Usage.bytes_ofCandidates candidates).2]
  exact (settled.placed.map _).sum_le_sum fun _ _ => Nat.zero_le _

/-- No blob of a settled layout starts before the shares that are kept free end. -/
theorem nonReservedStart_le_shareIndex {placed : PlacedTx} (member : placed ∈ layout.placed)
    {index : UInt32} (own : index ∈ placed.shareIndexes) :
    layout.nonReservedStart ≤ index.toNat := by
  have listed := settled.indexes.mem_iff.mp (List.mem_flatMap.mpr ⟨placed, member, own⟩)
  obtain ⟨entry, inside, rfl⟩ := List.mem_map.mp listed
  obtain ⟨behind, _, word, _⟩ := settled.stacked.of_mem inside
  rwa [UInt32.toNat_ofNat_of_lt' word]

variable (listed : layout.ordinary = candidates.filterMap Candidate.ordinary?)
  {wrappers : List Bytes} (written : layout.placed.mapM PlacedTx.wrap = .ok wrappers)
include listed written

/-- The streams of the block of candidates are as long as is counted for either kind. -/
theorem length_streams_eq :
    (Compact.stream layout.ordinary).length = (Usage.ofCandidates candidates).txBytes ∧
      (Compact.stream wrappers).length = layout.placedUsage.wrapperBytes := by
  constructor
  · rw [Compact.length_stream, listed, (Usage.bytes_ofCandidates candidates).1]
  · rw [settled.length_stream written, wrapperBytes_placedUsage]

variable (plain : ∀ tx ∈ layout.ordinary, IndexWrapper.isMarked tx = false)
include plain

/-- The transactions of the block of candidates are written as shares exactly when the bytes that
are counted for either kind fit a length field. -/
theorem exists_ofTxs_iff :
    (∃ txShares, TxShares.ofTxs (layout.ordinary ++ wrappers) = .ok txShares) ↔
      (Usage.ofCandidates candidates).txBytes < UInt32.size ∧
        layout.placedUsage.wrapperBytes < UInt32.size := by
  obtain ⟨ordinary, wrapped⟩ := length_streams_eq settled listed written
  simp only [settled.ofTxs_eq_ok_iff written plain, ordinary, wrapped, exists_and_left,
    exists_eq, and_true]

/-- The compact shares of the block of candidates are those that are counted. -/
theorem counted_of_ofTxs {txShares : TxShares}
    (start : layout.nonReservedStart = (Usage.ofCandidates candidates).reservedShares)
    {squareSize : Nat} (made : finalize? squareSize
      (Usage.ofCandidates candidates).reservedShares candidates = some layout)
    (found : TxShares.ofTxs (layout.ordinary ++ wrappers) = .ok txShares) :
    layout.Counted candidates txShares := by
  obtain ⟨ordinary, wrapped⟩ := length_streams_eq settled listed written
  obtain ⟨_, _, rfl⟩ := (settled.ofTxs_eq_ok_iff written plain).mp found
  have txs : (Compact.sequenceOf Namespace.transaction layout.ordinary).shares.length =
      (Usage.ofCandidates candidates).txShares := by
    rw [Compact.length_sequenceOf, ordinary, Usage.txShares]
  have placed : (Compact.sequenceOf Namespace.payForBlob wrappers).shares.length =
      layout.placedUsage.wrapperShares := by
    rw [Compact.length_sequenceOf, wrapped, Usage.wrapperShares]
  have fewer : layout.placedUsage.wrapperShares ≤
      (Usage.ofCandidates candidates).wrapperShares :=
    compactSharesNeeded_mono (wrapperBytes_placedUsage_le settled)
  refine ⟨txs, placed, placed.trans_le fewer, fun nothing => ?_, fun one member index own => ?_⟩
  · rw [placed, Usage.wrapperShares, wrapperBytes_placedUsage_eq made nothing, Usage.wrapperShares]
  · have behind := nonReservedStart_le_shareIndex settled member own
    rw [start, Usage.reservedShares] at behind
    rw [TxShares.length, txs, placed]
    omega

end Settled

/-- A blob of a candidate takes at most 2⁶³ shares, since its length fits its field. -/
theorem shareCount_le_of_collect {raws : List Bytes} {consts : AppConsts}
    {content : BlobCandidate}
    (member : content ∈ (Candidate.collect raws consts).filterMap Candidate.blob?) {blob : Blob}
    (own : blob ∈ content.blobs) : blob.shareCount ≤ 2 ^ 63 := by
  obtain ⟨candidate, inside, same⟩ := List.mem_filterMap.mp member
  have sound := Candidate.sound_of_mem_collect inside
  cases candidate with
  | ordinary tx => contradiction
  | blob other =>
    obtain rfl := Option.some.inj same
    obtain ⟨position, found⟩ := List.mem_iff_getElem?.mp own
    obtain ⟨declared, _, describes⟩ := sound.described position blob found
    obtain ⟨_, writable, _⟩ := blobCommitment_eq_ok.mp describes.commitment
    calc blob.shareCount
      _ ≤ blob.data.length := sparseSharesNeeded_le blob.data.length
      _ ≤ UInt32.size := Nat.le_of_lt writable.1
      _ ≤ 2 ^ 63 := by decide

/-- Whatever was submitted, the candidates have a layout behind the shares that are counted for
them, when the bytes of either kind are counted with 64 bits. Each index wrapper is as long as is
counted, wherever its blobs are placed. The transactions of the block are written as shares exactly
when the bytes of either kind fit a length field, and then they take exactly the shares that are
counted for them, so that no blob starts inside these. -/
theorem compactShares_of_collect {squareSize : Nat} (positive : 0 < squareSize)
    (narrow : squareSize ≤ 128) (raws : List Bytes) (consts : AppConsts) :
    (∀ content, .blob content ∈ Candidate.collect raws consts →
      ∀ indexes : List UInt32, indexes.length = content.blobs.length →
        ∀ raw, IndexWrapper.toBytes ⟨content.tx, indexes⟩ = .ok raw →
          raw.length = content.wrappedLength) ∧
    ((Usage.ofCandidates (Candidate.collect raws consts)).txBytes < UInt64.size →
      (Usage.ofCandidates (Candidate.collect raws consts)).wrapperBytes < UInt64.size →
      ∃ layout, finalize? squareSize
        (Usage.ofCandidates (Candidate.collect raws consts)).reservedShares
        (Candidate.collect raws consts) = some layout) ∧
    ∀ layout, finalize? squareSize
        (Usage.ofCandidates (Candidate.collect raws consts)).reservedShares
        (Candidate.collect raws consts) = some layout →
      ((∃ txs, layout.blockTxs = .ok txs) ↔
        ∀ placed ∈ layout.placed, placed.candidate.wrappedLength ≤ Wire.sizeLimit) ∧
      ∀ txs, layout.blockTxs = .ok txs →
        (TxShares.wrappedTxs txs).map List.length =
          (layout.placed.map fun placed => placed.candidate.wrappedLength) ∧
        ((Usage.ofCandidates (Candidate.collect raws consts)).txBytes < UInt32.size ∧
            layout.placedUsage.wrapperBytes < UInt32.size →
          ∃ txShares, TxShares.ofTxs txs = .ok txShares ∧
            layout.Counted (Candidate.collect raws consts) txShares) ∧
        ∀ txShares, TxShares.ofTxs txs = .ok txShares →
          (Usage.ofCandidates (Candidate.collect raws consts)).txBytes < UInt32.size ∧
            layout.placedUsage.wrapperBytes < UInt32.size := by
  refine ⟨fun content _ indexes each raw written => content.length_wrapper each written,
    fun txBytes wrapperBytes => ?_, fun layout made => ?_⟩
  · have cells := Nat.mul_le_mul narrow narrow
    have txs := compactSharesNeeded_le
      (Usage.ofCandidates (Candidate.collect raws consts)).txBytes
    have wrappers := compactSharesNeeded_le
      (Usage.ofCandidates (Candidate.collect raws consts)).wrapperBytes
    have words : UInt64.size = 2 ^ 64 ∧ UInt32.size = 2 ^ 32 := by decide
    refine exists_finalize_of_le positive (by omega) ?_ _ fun content member blob own =>
      shareCount_le_of_collect member own
    rw [Usage.reservedShares, Usage.txShares, Usage.wrapperShares]
    omega
  obtain ⟨_, start, listed, entries, settled⟩ := settled_of_finalize positive made
  have plain : ∀ tx ∈ layout.ordinary, IndexWrapper.isMarked tx = false := by
    intro tx member
    rw [listed, List.mem_filterMap] at member
    obtain ⟨candidate, inside, own⟩ := member
    cases candidate with
    | blob content => contradiction
    | ordinary other =>
      obtain rfl := Option.some.inj own
      exact (Candidate.sound_of_mem_collect inside).1
  refine ⟨exists_blockTxs_iff settled, fun txs encoded => ?_⟩
  obtain ⟨wrappers, written, rfl⟩ := map_eq_ok.mp encoded
  have splits := exists_ofTxs_iff settled listed written plain
  refine ⟨?_, fun short => ?_, fun txShares found => splits.mp ⟨txShares, found⟩⟩
  · rw [(settled.kinds_of_written written plain).2, settled.map_length_wrappers written]
  · obtain ⟨txShares, found⟩ := splits.mpr short
    exact ⟨txShares, found, counted_of_ofTxs settled listed written plain start made found⟩

/-- A plain transaction and a blob transaction take one compact share each of a square of four, and
the blob stands behind both. -/
theorem compactShares_of_oneByte : ∃ raw content layout txs txShares,
    Candidate.ofBytes raw AppVersion.v3.consts = .ok (.blob content) ∧
      finalize? 2 2 (Candidate.collect [[1, 2], raw] AppVersion.v3.consts) = some layout ∧
      layout.removed = [] ∧ layout.blockTxs = .ok txs ∧ TxShares.ofTxs txs = .ok txShares ∧
      txShares.ordinary.shares.length = 1 ∧ txShares.wrapped.shares.length = 1 := by
  obtain ⟨raw, commitment, read⟩ := Candidate.exists_oneByte
  have first : Candidate.ofBytes [1, 2] AppVersion.v3.consts = .ok (.ordinary [1, 2]) := by rfl
  have collected : Candidate.collect [[1, 2], raw] AppVersion.v3.consts =
      [.ordinary [1, 2], .blob (BlobCandidate.single Namespace.lowestUser commitment)] := by
    simp [Candidate.collect, first, read, Except.toOption]
  have plain : Usage.contribution (.ordinary [1, 2]) = ⟨3, 0, 0⟩ :=
    Usage.contribution_ordinary_of_lt (by decide)
  have usage : Usage.ofCandidates (Candidate.collect [[1, 2], raw] AppVersion.v3.consts) =
      ⟨3, 208, 1⟩ := by
    simp only [collected, Usage.ofCandidates_eq, List.map_cons, List.map_nil, plain,
      Usage.contribution_single]
    rfl
  have reserved : (Usage.ofCandidates
      (Candidate.collect [[1, 2], raw] AppVersion.v3.consts)).reservedShares = 2 := by
    rw [usage]
    decide
  obtain ⟨_, placing, laid⟩ := compactShares_of_collect (by decide : 0 < 2) (by decide)
    [[1, 2], raw] AppVersion.v3.consts
  rw [reserved, usage] at placing
  obtain ⟨layout, made⟩ := placing (by decide) (by decide)
  obtain ⟨encodes, block⟩ := laid layout (by rw [reserved]; exact made)
  rw [usage] at block
  have keepsAll : layout.removed = [] := by
    have removes := removed_eq_nil_iff (by decide : 0 < 2) (by decide) (by decide : 2 ≤ 2 * 2) made
    have order : visitOrder ((Candidate.collect [[1, 2], raw] AppVersion.v3.consts).filterMap
        Candidate.blob?) = [⟨0, 0, .oneByte⟩] := by
      rw [collected]
      exact List.mergeSort_singleton _
    rw [removes, order]
    decide
  have placed := map_candidate_placed made keepsAll
  rw [collected] at placed
  obtain ⟨txs, encoded⟩ := encodes.mpr fun one member => by
    have own := List.mem_map_of_mem (f := PlacedTx.candidate) member
    rw [placed] at own
    rw [List.mem_singleton.mp own, BlobCandidate.wrappedLength_single]
    decide
  obtain ⟨_, splits, _⟩ := block txs encoded
  have bytes := wrapperBytes_placedUsage_eq made keepsAll
  rw [usage] at bytes
  obtain ⟨txShares, split, shares⟩ := splits ⟨by decide, by rw [bytes]; decide⟩
  refine ⟨raw, _, layout, txs, txShares, read, made, keepsAll, encoded, split, ?_, ?_⟩
  · rw [shares.ordinary, usage]
    decide
  · rw [shares.all keepsAll, usage]
    decide

end Layout

section Zeros

variable {size : Nat} (long : 40 < size)
include long

/-- Zeros read as a transaction without content with more bytes behind it, so they pay for nothing,
and they carry no marker. -/
theorem Candidate.sound_zeros (threshold : Nat) :
    (Candidate.ordinary (List.replicate size 0)).Sound threshold := by
  have fourth : (List.replicate size (0 : UInt8))[3]? = some 0 :=
    List.getElem?_replicate_of_lt (by omega)
  obtain ⟨blobTx, wrapper⟩ := unmarked_of_fourth fourth
  have encoding : Format.tx.encode ⟨[], [], 0, 0, ""⟩ = List.replicate 40 0 := by decide
  have lawful : Format.tx.LawfulAt ⟨[], [], 0, 0, ""⟩ := Format.exact_tx.lawful _ (by decide)
  have parts : List.replicate size (0 : UInt8) =
      List.replicate 40 0 ++ 0 :: List.replicate (size - 41) 0 := by
    rw [← List.replicate_succ, ← List.replicate_add]
    exact congrArg (List.replicate · 0) (by omega)
  refine ⟨wrapper, blobTx, ?_⟩
  rw [Tx.rawPaysForBlobs, Tx.ofBytes, Wire.deserialize, parts, ← encoding, lawful.decode_encode]

/-- Transactions of zeros are refused when their stream is too long for its length field. -/
theorem TxShares.ofTxs_zeros {many : Nat}
    (above : UInt32.size ≤ many * Usage.delimitedLength size) :
    TxShares.ofTxs (List.replicate many (List.replicate size 0)) =
      .error (.share (.sequenceTooLong (many * Usage.delimitedLength size))) := by
  obtain ⟨wrapper, _⟩ := Candidate.sound_zeros long 0
  have wrapped : TxShares.wrappedTxs (List.replicate many (List.replicate size 0)) = [] :=
    List.filter_replicate_of_neg (by simp [wrapper])
  have ordinary : TxShares.ordinaryTxs (List.replicate many (List.replicate size 0)) =
      List.replicate many (List.replicate size 0) := List.filter_replicate_of_pos (by simp [wrapper])
  have length : Compact.streamLength (List.replicate many (List.replicate size 0)) =
      many * Usage.delimitedLength size := by
    rw [Compact.streamLength_eq, Compact.length_stream, List.map_replicate, List.sum_replicate,
      List.length_replicate, smul_eq_mul]
  have nonzero : many ≠ 0 := by
    rintro rfl
    rw [Nat.zero_mul] at above
    exact absurd above (by decide)
  rw [TxShares.ofTxs, TxShares.declaredIndexes, wrapped, ordinary, Compact.split, length,
    if_neg (by simpa using nonzero), if_neg (Nat.not_lt.mpr above)]
  rfl

/-- A transaction of zeros that is not too large is an ordinary candidate, however often it is
submitted. -/
theorem Candidate.collect_zeros (small : size ≤ 2097152) (many : Nat) :
    Candidate.collect (List.replicate many (List.replicate size 0)) AppVersion.v3.consts =
      List.replicate many (.ordinary (List.replicate size 0)) := by
  obtain ⟨wrapper, blobTx, pays⟩ := Candidate.sound_zeros long 0
  have kept : ∀ limit ∈ AppVersion.v3.consts.maxTxBytes,
      (List.replicate size (0 : UInt8)).length ≤ limit := by
    intro limit member
    rw [List.length_replicate]
    exact Option.some.inj member ▸ small
  have read := ofBytes_of_unmarked kept blobTx wrapper
  rw [pays, if_neg Bool.false_ne_true] at read
  rw [Candidate.collect]
  apply List.filterMap_replicate_of_some
  rw [read]
  rfl

end Zeros

namespace Layout

/-- Candidates without blobs have a layout, and its block holds their transactions. -/
theorem exists_blockTxs_of_ordinary {squareSize : Nat} (positive : 0 < squareSize)
    (narrow : squareSize * squareSize < UInt32.size) (nonReservedStart : Nat) (txs : List Bytes) :
    ∃ layout, finalize? squareSize nonReservedStart (txs.map .ordinary) = some layout ∧
      layout.blockTxs = .ok txs := by
  have blobless : (txs.map Candidate.ordinary).filterMap Candidate.blob? = [] := by
    rw [List.filterMap_map]
    exact List.filterMap_eq_nil_iff.mpr fun _ _ => rfl
  obtain ⟨layout, made⟩ : ∃ layout,
      finalize? squareSize nonReservedStart (txs.map .ordinary) = some layout :=
    exists_finalize positive narrow fun candidate member =>
      absurd (blobless ▸ member) List.not_mem_nil
  obtain ⟨_, _, ordinary, entries, settled⟩ := settled_of_finalize positive made
  have unplaced : layout.placed = [] := by
    have part := settled.placed
    rwa [blobless, List.sublist_nil, List.map_eq_nil_iff] at part
  have all : layout.ordinary = txs := by
    rw [ordinary, List.filterMap_map]
    exact List.filterMap_some
  refine ⟨layout, made, ?_⟩
  rw [blockTxs, unplaced, all]
  exact congrArg Except.ok (List.append_nil txs)

/-- Candidates may have a layout whose block is not written as shares: 4096 transactions of 2²⁰ zeros
are kept and have a layout, but with their lengths in front they take 2³² + 12288 bytes, which are
too many for the length field of a sequence. -/
theorem sequenceTooLong_of_zeros :
    let raws : List Bytes := List.replicate 4096 (List.replicate (2 ^ 20) 0)
    let candidates := Candidate.collect raws AppVersion.v3.consts
    ∃ layout, finalize? 128 (Usage.ofCandidates candidates).reservedShares candidates =
        some layout ∧ layout.blockTxs = .ok raws ∧
      TxShares.ofTxs raws = .error (.share (.sequenceTooLong (2 ^ 32 + 12288))) := by
  intro raws candidates
  have kept : candidates = raws.map .ordinary :=
    (Candidate.collect_zeros (by decide) (by decide) 4096).trans List.map_replicate.symm
  have length : Usage.delimitedLength (2 ^ 20) = 2 ^ 20 + 3 := by
    simp [Usage.delimitedLength, Varint.size]
  have above : UInt32.size ≤ 4096 * Usage.delimitedLength (2 ^ 20) := by
    rw [length]
    decide
  have refused : TxShares.ofTxs raws = _ := TxShares.ofTxs_zeros (by decide) above
  rw [length] at refused
  rw [kept]
  obtain ⟨layout, made, encoded⟩ := exists_blockTxs_of_ordinary (by decide : 0 < 128) (by decide)
    (Usage.ofCandidates (raws.map .ordinary)).reservedShares raws
  exact ⟨layout, made, encoded, refused⟩

end Layout

end DataSquare
