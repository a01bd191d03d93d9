import DataSquare.Proofs.Proposal.Placed
import DataSquare.Proofs.Proposal.Prepared

/-!
# Payments and blobs pair off

No check compares share indexes with each other. Still no two of an accepted block are equal: the
square is made with all of them in order, and each blob has to start behind the one before it. So
the share indexes of all index wrappers pair off with the blobs of the block, each with the blob of
its rank, in the declared namespace and at the declared place.
-/
namespace DataSquare

/-- An index wrapper holds a transaction whose only message is a payment that is sound on its own
and whose only signer is the account that pays, with a share index for each blob paid for. -/
structure IndexWrapper.Pays (wrapper : IndexWrapper) (payment : BlobPayment) : Prop where
  /-- The transaction is the payment and is signed by the account that pays. -/
  inner : ∃ tx, Tx.ofBytes wrapper.tx = .ok tx ∧ tx.messages = [.payment payment] ∧
    tx.signers = [payment.signer]
  /-- The payment is sound on its own. -/
  valid : payment.validate = .ok ()
  /-- There is a share index for each blob paid for. -/
  counted : wrapper.shareIndexes.length = payment.blobCount

/-- The place of a share index among those of index wrappers. -/
structure SharePlace (wrappers : List IndexWrapper) where
  /-- The position of the wrapper. -/
  wrapper : Fin wrappers.length
  /-- The position among the share indexes of the wrapper. -/
  position : Fin wrappers[wrapper].shareIndexes.length

namespace SharePlace

variable {wrappers : List IndexWrapper}

/-- The share index at a place. -/
def shareIndex (place : SharePlace wrappers) : UInt32 :=
  wrappers[place.wrapper].shareIndexes[place.position]

/-- The number of share indexes of all wrappers below the one at a place. -/
def rank (place : SharePlace wrappers) : Nat :=
  (wrappers.flatMap IndexWrapper.shareIndexes).countP fun other => other < place.shareIndex

/-- The share index at a place is one of those of all wrappers. -/
theorem shareIndex_mem (place : SharePlace wrappers) :
    place.shareIndex ∈ wrappers.flatMap IndexWrapper.shareIndexes :=
  List.mem_flatMap.mpr ⟨wrappers[place.wrapper], List.getElem_mem _, List.getElem_mem _⟩

/-- Every share index of a wrapper has a place. -/
theorem exists_of_mem {shareIndex : UInt32}
    (member : shareIndex ∈ wrappers.flatMap IndexWrapper.shareIndexes) :
    ∃ place : SharePlace wrappers, place.shareIndex = shareIndex := by
  obtain ⟨wrapper, listed, inside⟩ := List.mem_flatMap.mp member
  obtain ⟨index, bound, rfl⟩ := List.mem_iff_getElem.mp listed
  obtain ⟨position, room, rfl⟩ := List.mem_iff_getElem.mp inside
  exact ⟨⟨⟨index, bound⟩, ⟨position, room⟩⟩, rfl⟩

/-- A share index has one place when none occurs twice. -/
theorem shareIndex_injective
    (distinct : (wrappers.flatMap IndexWrapper.shareIndexes).Nodup) :
    Function.Injective fun place : SharePlace wrappers => place.shareIndex := by
  rintro ⟨⟨one, inside⟩, ⟨position, room⟩⟩ ⟨⟨other, otherInside⟩, ⟨otherPosition, otherRoom⟩⟩ same
  obtain ⟨within, apart⟩ := List.nodup_flatMap.mp distinct
  change wrappers[one].shareIndexes[position] =
    wrappers[other].shareIndexes[otherPosition] at same
  have left : wrappers[one].shareIndexes[position] ∈ wrappers[one].shareIndexes :=
    List.getElem_mem room
  have right : wrappers[one].shareIndexes[position] ∈ wrappers[other].shareIndexes :=
    same ▸ List.getElem_mem otherRoom
  -- Two wrappers share no index, so both places are in one.
  have wrapper : one = other := by
    rcases Nat.lt_trichotomy one other with before | equal | after
    · exact absurd right
        (List.pairwise_iff_getElem.mp apart one other inside otherInside before left)
    · exact equal
    · exact absurd left
        (List.pairwise_iff_getElem.mp apart other one otherInside inside after right)
  subst wrapper
  have index : position = otherPosition :=
    (List.Nodup.getElem_inj_iff (within _ (List.getElem_mem inside))).mp same
  subst index
  rfl

section Keys

variable {keys : List UInt32} (increasing : keys.Pairwise (· < ·))
  (perm : keys.Perm (wrappers.flatMap IndexWrapper.shareIndexes))
include increasing perm

/-- No share index occurs twice when they go up in order. -/
theorem nodup_of_increasing : (wrappers.flatMap IndexWrapper.shareIndexes).Nodup :=
  perm.nodup_iff.mp (increasing.imp fun below => UInt32.ne_of_lt below)

/-- The share index at a place is the one of its rank. -/
theorem getElem?_rank (place : SharePlace wrappers) :
    keys[place.rank]? = some place.shareIndex := by
  obtain ⟨position, entry⟩ := List.mem_iff_getElem?.mp (perm.mem_iff.mpr place.shareIndex_mem)
  have ranked : place.rank = position := by
    rw [rank, ← perm.countP_eq, countP_lt_eq_rank increasing entry]
  rw [ranked, entry]

/-- Every rank below the number of share indexes is that of one place. -/
theorem exists_pairing {count : Nat} (length : keys.length = count) :
    ∃ pairing : SharePlace wrappers → Fin count,
      Function.Bijective pairing ∧ ∀ place, (pairing place).val = place.rank := by
  have bound : ∀ place : SharePlace wrappers, place.rank < count := by
    intro place
    obtain ⟨inside, _⟩ := List.getElem?_eq_some_iff.mp (getElem?_rank increasing perm place)
    omega
  refine ⟨fun place => ⟨place.rank, bound place⟩, ⟨?injective, ?surjective⟩, fun _ => rfl⟩
  case injective =>
    intro one other same
    have ranks : one.rank = other.rank := congrArg Fin.val same
    have entry := getElem?_rank increasing perm one
    rw [ranks, getElem?_rank increasing perm other] at entry
    exact shareIndex_injective (nodup_of_increasing increasing perm) (Option.some.inj entry).symm
  case surjective =>
    rintro ⟨number, inside⟩
    obtain ⟨key, entry⟩ : ∃ key, keys[number]? = some key :=
      ⟨_, List.getElem?_eq_getElem (length ▸ inside)⟩
    obtain ⟨place, same⟩ := exists_of_mem (perm.mem_iff.mp (List.mem_of_getElem? entry))
    have ranked : place.rank = number := by
      rw [rank, same, ← perm.countP_eq, countP_lt_eq_rank increasing entry]
    exact ⟨place, Fin.ext ranked⟩

end Keys

end SharePlace

/-- The places of share indexes pair off with the blobs of a square: each with the blob of its
rank, which is in the namespace that is declared there and stands in the square at the share
index. -/
structure PairsOff (wrappers : List IndexWrapper) (payments : List BlobPayment)
    (blobs : List Blob) (shares : List Share) (blobOf : SharePlace wrappers → Fin blobs.length) :
    Prop where
  /-- Every blob has one place. -/
  bijective : Function.Bijective blobOf
  /-- The blob is the one whose position is the rank of the share index. -/
  ranked : ∀ place, (blobOf place).val = place.rank
  /-- The payment declares the namespace of the blob. -/
  named : ∀ place, ∃ payment, payments[place.wrapper.val]? = some payment ∧
    payment.namespaces[place.position.val]? = some blobs[blobOf place].ns
  /-- The shares of the blob stand at the share index. -/
  stands : ∀ place, ∃ placed, Sparse.splitBlob blobs[blobOf place] = .ok placed ∧
    placed <+: shares.drop place.shareIndex.toNat

/-- What a payment declares about a blob includes its namespace. -/
theorem WrappedPayment.getElem?_namespaces {payment : WrappedPayment} {position : Nat}
    {declared : DeclaredBlob} (found : payment.declared? position = some declared) :
    payment.payment.namespaces[position]? = some declared.ns := by
  obtain ⟨ns, named, found⟩ := Option.bind_eq_some_iff.mp found
  obtain ⟨size, _, found⟩ := Option.bind_eq_some_iff.mp found
  obtain ⟨commitment, _, found⟩ := Option.bind_eq_some_iff.mp found
  obtain ⟨version, _, found⟩ := Option.bind_eq_some_iff.mp found
  obtain rfl := Option.some.inj found
  exact named

/-- A transaction that is a single payment has it as its only message. -/
theorem Tx.payment?_eq_some {tx : Tx} {payment : BlobPayment} :
    tx.payment? = some payment ↔ tx.messages = [.payment payment] := by
  unfold Tx.payment?
  split
  · rename_i content alone
    simp [alone]
  · rename_i several
    simp only [reduceCtorEq, false_iff]
    exact several payment

/-- A transaction that does not count as paying pays for no blobs if it decodes. -/
theorem Tx.paysForBlobs_of_raw {raw : Bytes} (plain : Tx.rawPaysForBlobs raw = false) {tx : Tx}
    (decoded : Tx.ofBytes raw = .ok tx) : tx.paysForBlobs = false := by
  rwa [Tx.rawPaysForBlobs, decoded] at plain

namespace Process

variable {data : BlockData} {wrapped : List WrappedPayment} {wrappers : List IndexWrapper}
  {shares : List Share}

/-- A payment is what stands in an index wrapper. -/
def ReadFrom (payment : WrappedPayment) (wrapper : IndexWrapper) : Prop :=
  payment.shareIndexes = wrapper.shareIndexes ∧ ∃ tx, Tx.ofBytes wrapper.tx = .ok tx ∧
    tx.messages = [.payment payment.payment] ∧ tx.signers = payment.signers

/-- The payments of a block are read from its index wrappers in order. -/
theorem exists_readFrom (decoded : decode data = .ok wrapped) : ∃ wrappers,
    (TxShares.wrappedTxs data.txs).mapM IndexWrapper.ofBytes = .ok wrappers ∧
      List.Forall₂ ReadFrom wrapped wrappers := by
  obtain ⟨found, read, rfl, _⟩ := decode_eq_ok.mp decoded
  have contents := mapM_eq_ok.mp (mapM_content_of_blockTxs read)
  rw [List.forall₂_map_right_iff] at contents
  have wrappers : ∀ {raws : List Bytes} {payments : List WrappedPayment},
      List.Forall₂ (fun raw payment => WrappedPayment.ofWrapper 0 raw =
        .ok (WrappedPayment.content payment)) raws payments →
      ∃ wrappers, raws.mapM IndexWrapper.ofBytes = .ok wrappers ∧
        List.Forall₂ ReadFrom payments wrappers := by
    intro raws payments each
    induction each with
    | nil => exact ⟨[], rfl, .nil⟩
    | @cons raw payment raws payments head tail ih =>
      obtain ⟨rest, listed, later⟩ := ih
      obtain ⟨wrapper, tx, own, unwrapped, inner, pays, same⟩ :=
        WrappedPayment.ofWrapper_eq_ok.mp head
      obtain ⟨_, signers, content, shareIndexes⟩ := payment
      obtain ⟨_, rfl, rfl, rfl⟩ := WrappedPayment.mk.inj same
      exact ⟨wrapper :: rest, mapM_eq_ok.mpr (.cons unwrapped (mapM_eq_ok.mp listed)),
        .cons ⟨rfl, tx, inner, Tx.payment?_eq_some.mp pays, rfl⟩ later⟩
  exact wrappers contents

/-- Payments that are accepted pay what stands in their wrapper. -/
theorem pays_of_checkPayment {square : Rebuilt} {payment : WrappedPayment} {wrapper : IndexWrapper}
    (checked : checkPayment square payment = .ok ()) (read : ReadFrom payment wrapper) :
    wrapper.Pays payment.payment := by
  obtain ⟨valid, signed, counted, _⟩ := checkPayment_eq_ok.mp checked
  obtain ⟨same, tx, inner, only, signers⟩ := read
  have alone := WrappedPayment.checkSigners_eq_ok.mp signed
  exact ⟨⟨tx, inner, only, signers.trans alone⟩, valid, same ▸ counted⟩

section Places

variable (read : List.Forall₂ ReadFrom wrapped wrappers)
include read

/-- Payments and the wrappers they stand in have the same share indexes. -/
theorem flatMap_shareIndexes_of_readFrom : wrapped.flatMap WrappedPayment.shareIndexes =
    wrappers.flatMap IndexWrapper.shareIndexes := by
  induction read with
  | nil => rfl
  | cons head _ ih => rw [List.flatMap_cons, List.flatMap_cons, head.1, ih]

/-- The share index at a place stands in the payment at the same place. -/
theorem getElem?_of_readFrom (place : SharePlace wrappers) : ∃ payment,
    wrapped[place.wrapper.val]? = some payment ∧
      payment.shareIndexes[place.position.val]? = some place.shareIndex := by
  obtain ⟨many, same⟩ := List.forall₂_iff_get.mp read
  have inside : place.wrapper.val < wrapped.length := by
    have bound := place.wrapper.isLt
    omega
  have own : wrapped[place.wrapper.val].shareIndexes = wrappers[place.wrapper].shareIndexes :=
    (same place.wrapper.val inside place.wrapper.isLt).1
  refine ⟨_, List.getElem?_eq_getElem inside, ?_⟩
  rw [own]
  exact List.getElem?_eq_getElem place.position.isLt

/-- The blob of the rank of a share index is found at the share index and stands there. -/
theorem exists_blobAt_of_readFrom (decoded : decode data = .ok wrapped)
    (made : data.square = .ok shares) (place : SharePlace wrappers) : ∃ blob,
    data.blobs[place.rank]? = some blob ∧
      blobAt (placedBlobs wrapped data.blobs) place.shareIndex = some blob ∧
      blob.IsWritable ∧ blob.shares <+: shares.drop place.shareIndex.toNat := by
  have indexes := flatMap_shareIndexes_of_readFrom read
  have member : place.shareIndex ∈ wrapped.flatMap WrappedPayment.shareIndexes := by
    rw [indexes]
    exact place.shareIndex_mem
  have found := exists_blobAt decoded made member
  rwa [indexes] at found

/-- The payment of a wrapper declares the namespace of the blob that is found at a place. -/
theorem named_of_checkPayment {square : Rebuilt}
    (checked : ∀ payment ∈ wrapped, checkPayment square payment = .ok ())
    (place : SharePlace wrappers) {blob : Blob}
    (stands : blobAt square.placed place.shareIndex = some blob) : ∃ payment,
    (wrapped.map WrappedPayment.payment)[place.wrapper.val]? = some payment ∧
      payment.namespaces[place.position.val]? = some blob.ns := by
  obtain ⟨payment, entry, placed⟩ := getElem?_of_readFrom read place
  obtain ⟨_, _, _, checks⟩ :=
    checkPayment_eq_ok.mp (checked payment (List.mem_of_getElem? entry))
  obtain ⟨declared, declares, namespaces, _⟩ :=
    checkBlob_eq_ok.mp (checks place.position.val place.shareIndex placed)
  rw [stands, Option.map_some, Option.some.injEq] at namespaces
  refine ⟨payment.payment, ?_, ?_⟩
  · rw [List.getElem?_map, entry]
    rfl
  · rw [WrappedPayment.getElem?_namespaces declares, namespaces]

end Places

end Process

/-- In an accepted block only index wrappers pay for blobs, and each does so by a single sound
payment signed by the account that pays. No share index occurs twice, and their places pair off
with the blobs. -/
theorem pairsOff_of_accepted {block : Block} {consts : AppConsts}
    (accepted : processProposal block consts = .accepted) :
    (∀ raw ∈ TxShares.ordinaryTxs block.data.txs, ∀ tx, Tx.ofBytes raw = .ok tx →
      tx.paysForBlobs = false) ∧
    ∃ wrappers payments shares,
      (TxShares.wrappedTxs block.data.txs).mapM IndexWrapper.ofBytes = .ok wrappers ∧
      List.Forall₂ IndexWrapper.Pays wrappers payments ∧
      (wrappers.flatMap IndexWrapper.shareIndexes).Nodup ∧
      block.data.square = .ok shares ∧
      ∃ blobOf, PairsOff wrappers payments block.data.blobs shares blobOf := by
  obtain ⟨wrapped, shares, header, trees, _, decoded, made, _, _, paid⟩ :=
    Process.verify_eq_ok.mp (processProposal_eq_accepted.mp accepted)
  have checked := (Process.checkCommitments_eq_ok.mp paid).1
  obtain ⟨found, listed, same, _⟩ := Process.decode_eq_ok.mp decoded
  obtain ⟨wrappers, unwrapped, read⟩ := Process.exists_readFrom decoded
  have pays : List.Forall₂ IndexWrapper.Pays wrappers (wrapped.map WrappedPayment.payment) := by
    rw [List.forall₂_map_right_iff]
    have both := (List.forall₂_and_left _ _).mpr ⟨checked, read⟩
    exact List.Forall₂.flip (both.imp fun _ _ pair => Process.pays_of_checkPayment pair.1 pair.2)
  obtain ⟨increasing, length⟩ := Process.sortedIndexes_of_square decoded made
  have perm : (Process.sortedIndexes wrapped).Perm
      (wrappers.flatMap IndexWrapper.shareIndexes) := by
    rw [← Process.flatMap_shareIndexes_of_readFrom read]
    exact List.mergeSort_perm _ _
  obtain ⟨blobOf, bijective, ranked⟩ := SharePlace.exists_pairing increasing perm length
  refine ⟨fun raw member tx plain => ?ordinary, wrappers, _, shares, unwrapped, pays,
    SharePlace.nodup_of_increasing increasing perm, made, blobOf, bijective, ranked,
    fun place => ?named, fun place => ?stands⟩
  case ordinary =>
    exact Tx.paysForBlobs_of_raw (Process.ordinary_of_blockTxs listed member).2 plain
  case named =>
    obtain ⟨blob, blobEntry, stands, _⟩ :=
      Process.exists_blobAt_of_readFrom read decoded made place
    rw [← ranked] at blobEntry
    obtain ⟨_, rfl⟩ := List.getElem?_eq_some_iff.mp blobEntry
    exact Process.named_of_checkPayment read checked place stands
  case stands =>
    obtain ⟨blob, blobEntry, _, writable, stands⟩ :=
      Process.exists_blobAt_of_readFrom read decoded made place
    rw [← ranked] at blobEntry
    obtain ⟨_, rfl⟩ := List.getElem?_eq_some_iff.mp blobEntry
    exact ⟨_, Sparse.splitBlob_eq_ok.mpr ⟨writable, rfl⟩, stands⟩

namespace Layout

variable (first second : Digest)

/-- The layout of two transactions with a blob of one byte each, where the first has its blob in the
higher namespace. -/
def twoUsers : Layout :=
  ⟨2, 1, [], [⟨.single .secondUser first, [2]⟩, ⟨.single .lowestUser second, [1]⟩],
    [.single .lowestUser, .single .secondUser], []⟩

/-- The blob in the lower namespace is placed first. -/
theorem finalize?_twoUsers :
    finalize? 2 1 [.blob (.single .secondUser first), .blob (.single .lowestUser second)] =
      some (twoUsers first second) := by
  have slots : slots [.single .secondUser first, .single .lowestUser second] =
      [⟨0, 0, .single .secondUser⟩, ⟨1, 0, .single .lowestUser⟩] := rfl
  have order : visitOrder [.single .secondUser first, .single .lowestUser second] =
      [⟨1, 0, .single .lowestUser⟩, ⟨0, 0, .single .secondUser⟩] := by
    have above : ¬ Namespace.secondUser ≤ Namespace.lowestUser := by decide
    rw [visitOrder, slots]
    simp [List.mergeSort, Blob.single, above]
  have visits : visit 2 1 [] [⟨1, 0, .single .lowestUser⟩, ⟨0, 0, .single .secondUser⟩] =
      some [⟨⟨1, 0, .single .lowestUser⟩, .placed 1⟩, ⟨⟨0, 0, .single .secondUser⟩, .placed 2⟩] := by
    decide +kernel
  have listed : [Candidate.blob (.single .secondUser first),
      .blob (.single .lowestUser second)].filterMap Candidate.blob? =
    [.single .secondUser first, .single .lowestUser second] := rfl
  rw [finalize?, visits?, listed, order, visits]
  rfl

variable {first second} {threshold : Nat}
  (firstPaid : blobCommitment (.single .secondUser) threshold = .ok first)
  (secondPaid : blobCommitment (.single .lowestUser) threshold = .ok second)
include firstPaid secondPaid

/-- The layout is ready for its block when both transactions pay for their blob. -/
theorem exists_ready_twoUsers : ∃ entries, (twoUsers first second).Ready
    [.single .secondUser first, .single .lowestUser second] threshold entries := by
  obtain ⟨_, _, _, entries, settled⟩ :=
    settled_of_finalize Nat.two_pos (finalize?_twoUsers first second)
  have sound : ∀ candidate ∈ [BlobCandidate.single .secondUser first, .single .lowestUser second],
      candidate.Sound threshold := by
    rw [List.forall_mem_cons, List.forall_mem_singleton]
    exact ⟨BlobCandidate.sound_single rfl firstPaid, BlobCandidate.sound_single rfl secondPaid⟩
  have bytes : ([BlobCandidate.single .secondUser first, .single .lowestUser second].map
      fun candidate => Usage.delimitedLength candidate.wrappedLength).sum = 416 := by
    simp only [List.map_cons, List.map_nil, Usage.delimitedLength_wrappedLength_single]
    rfl
  refine ⟨entries, settled, fun tx member => absurd member List.not_mem_nil, sound,
    Nat.zero_le _, ?wrapperBytes, ?reserved, ?inside⟩
  case wrapperBytes =>
    rw [bytes]
    decide
  case reserved =>
    rw [bytes]
    change compactSharesNeeded 0 + compactSharesNeeded 416 ≤ 1
    decide
  case inside =>
    change 1 ≤ 2 * 2
    decide

/-- The block of the layout is accepted: its rows are clear, since the second one starts with the blob
in the higher namespace. -/
theorem exists_accepted_twoUsers {consts : AppConsts}
    (same : consts.subtreeRootThreshold = threshold)
    (allowed : consts.isValidSquareSize 2 = true) :
    ∃ block : Block, (twoUsers first second).blockData = .ok block.data ∧
      (TxShares.wrappedTxs block.data.txs).mapM IndexWrapper.ofBytes =
        .ok [⟨(BlobCandidate.single .secondUser first).tx, [2]⟩,
          ⟨(BlobCandidate.single .lowestUser second).tx, [1]⟩] ∧
      processProposal block consts = .accepted := by
  obtain ⟨entries, ready⟩ := exists_ready_twoUsers firstPaid secondPaid
  obtain ⟨data, shares, header, trees, contents, size, made, built, width⟩ :=
    ready.exists_header Nat.two_pos (show 2 ≤ 128 by decide)
  have ordered := ready.ordered contents made
  have indexes : ([1] : List UInt32)[0]? = some 1 ∧ ([2] : List UInt32)[0]? = some 2 := ⟨rfl, rfl⟩
  have low : Ordered.spaceAt shares 1 = .lowestUser :=
    ready.spaceAt_shareIndex contents made (List.mem_cons_of_mem _ List.mem_cons_self) indexes.1 rfl
  have high : Ordered.spaceAt shares 2 = .secondUser :=
    ready.spaceAt_shareIndex contents made List.mem_cons_self indexes.2 rfl
  have clear : trees.Clear header := by
    apply ordered.clear_of_two_rows built width
    · refine Namespace.lt_of_le_of_lt (ordered.spaceAt_le (Nat.zero_le 1)) ?_
      rw [low, high]
      decide
    · rw [high]
      decide
  obtain ⟨wrappers, written, rfl⟩ := blockData_eq_ok.mp contents
  exact ⟨⟨⟨0, .replicate 20 0, header.hash⟩, _⟩, contents,
    ready.settled.wrapped_of_written written ready.plain,
    ready.accepted_of_clear same allowed contents size made built width clear _ _⟩

end Layout

/-- Two index wrappers whose share indexes go down pair off crosswise with the blobs of an accepted
block. -/
theorem pairsOff_of_two_wrappers : ∃ (block : Block) (tx other : Bytes)
    (payments : List BlobPayment) (shares : List Share)
    (blobOf : SharePlace [⟨tx, [2]⟩, ⟨other, [1]⟩] → Fin block.data.blobs.length),
    processProposal block AppVersion.v3.consts = .accepted ∧
      block.data.blobs = [.single .lowestUser, .single .secondUser] ∧
      (TxShares.wrappedTxs block.data.txs).mapM IndexWrapper.ofBytes =
        .ok [⟨tx, [2]⟩, ⟨other, [1]⟩] ∧
      List.Forall₂ IndexWrapper.Pays [⟨tx, [2]⟩, ⟨other, [1]⟩] payments ∧
      PairsOff _ payments block.data.blobs shares blobOf ∧
      (blobOf ⟨⟨0, Nat.two_pos⟩, ⟨0, Nat.one_pos⟩⟩).val = 1 ∧
      (blobOf ⟨⟨1, Nat.one_lt_two⟩, ⟨0, Nat.one_pos⟩⟩).val = 0 := by
  obtain ⟨first, firstPaid⟩ := exists_blobCommitment (List.cons_ne_nil _ _)
    (Blob.isWritable_single .secondUser) AppVersion.v3.consts.subtreeRootThreshold
  obtain ⟨second, secondPaid⟩ := exists_blobCommitment (List.cons_ne_nil _ _)
    (Blob.isWritable_single .lowestUser) AppVersion.v3.consts.subtreeRootThreshold
  have allowed : AppVersion.v3.consts.isValidSquareSize 2 = true := by decide
  obtain ⟨block, contents, read, accepted⟩ :=
    Layout.exists_accepted_twoUsers firstPaid secondPaid rfl allowed
  obtain ⟨_, wrappers, payments, shares, unwrapped, pays, _, _, blobOf, pairs⟩ :=
    pairsOff_of_accepted accepted
  obtain rfl := Except.ok.inj (unwrapped.symm.trans read)
  refine ⟨block, _, _, payments, shares, blobOf, accepted, ?_, unwrapped, pays, pairs, ?_, ?_⟩
  · obtain ⟨_, _, same⟩ := Layout.blockData_eq_ok.mp contents
    rw [same]
    rfl
  · rw [pairs.ranked]
    rfl
  · rw [pairs.ranked]
    rfl

end DataSquare
