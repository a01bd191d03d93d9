import DataSquare.Mempool.Candidate
import DataSquare.Proofs.Tx
import DataSquare.Proofs.Wire.Encodings

/-!
# What is known of candidates

A candidate has passed every check that a validator makes on its transaction before the square is
known. An ordinary one is neither marked nor a payment. One that pays for blobs is a single payment,
signed by the account that pays, which describes exactly the blobs that come with it.
-/
namespace DataSquare

/-- Whether a payment declares a blob to be what it is. -/
structure DeclaredBlob.Describes (declared : DeclaredBlob) (blob : Blob) (threshold : Nat) :
    Prop where
  /-- The namespace is that of the blob. -/
  ns : blob.ns = declared.ns
  /-- The size is that of the blob. -/
  size : blob.size = declared.size.toNat
  /-- The share version is that of the blob. -/
  shareVersion : blob.shareVersion = declared.shareVersion
  /-- The commitment is that of the blob. -/
  commitment : blobCommitment blob threshold = .ok declared.commitment

namespace BlobCandidate

/-- What is known of a candidate that pays for blobs. -/
structure Sound (candidate : BlobCandidate) (threshold : Nat) : Prop where
  /-- The transaction is the payment alone, signed by the account that pays. -/
  signed : ∃ tx, Tx.ofBytes candidate.tx = .ok tx ∧ tx.payment? = some candidate.payment ∧
    tx.signers = [candidate.payment.signer]
  /-- The payment is sound on its own. -/
  payment : candidate.payment.validate = .ok ()
  /-- The payment is for as many blobs as there are. -/
  count : candidate.payment.blobCount = candidate.blobs.length
  /-- The blobs may be published. -/
  valid : ∀ blob ∈ candidate.blobs, blob.validate = .ok ()
  /-- Each blob is what the payment declares at its position. -/
  described : ∀ (position : Nat) (blob : Blob), candidate.blobs[position]? = some blob →
    ∃ declared, candidate.payment.declared[position]? = some declared ∧
      declared.Describes blob threshold

/-- A blob is accepted with a declaration only when it may be published and is described by it. -/
theorem describes_of_checkBlob {threshold position : Nat} {blob : Blob} {declared : DeclaredBlob}
    (passed : checkBlob threshold blob declared position = .ok ()) :
    blob.validate = .ok () ∧ declared.Describes blob threshold := by
  unfold checkBlob at passed
  cases valid : blob.validate with
  | error cause =>
    rw [valid] at passed
    contradiction
  | ok _ =>
    rw [valid] at passed
    obtain ⟨ns, passed⟩ := guard_eq_ok.mp passed
    obtain ⟨size, passed⟩ := guard_eq_ok.mp passed
    obtain ⟨version, passed⟩ := guard_eq_ok.mp passed
    cases found : blobCommitment blob threshold with
    | error cause =>
      rw [found] at passed
      contradiction
    | ok commitment =>
      rw [found] at passed
      obtain ⟨same, _⟩ := guard_eq_ok.mp passed
      refine ⟨rfl, not_not.mp ns, not_not.mp size, not_not.mp version, ?_⟩
      rw [found, not_not.mp same]

/-- Exactly the given account signs. -/
theorem checkSigners_eq_ok {signers : List Address} {signer : Address} :
    checkSigners signers signer = .ok () ↔ signers = [signer] := by
  unfold checkSigners
  split
  · rename_i only
    by_cases same : only = signer <;> simp [same]
  · rename_i several
    simp only [reduceCtorEq, false_iff]
    exact several signer

/-- A list of blobs is accepted with a payment only when the payment is sound and describes each of
them. -/
theorem described_of_checkBlobs {threshold : Nat} {payment : BlobPayment} {blobs : List Blob}
    (passed : checkBlobs threshold payment blobs = .ok ()) :
    payment.validate = .ok () ∧ payment.blobCount = blobs.length ∧
      ∀ (position : Nat) (blob : Blob), blobs[position]? = some blob →
        blob.validate = .ok () ∧ ∃ declared, payment.declared[position]? = some declared ∧
          declared.Describes blob threshold := by
  unfold checkBlobs at passed
  cases valid : payment.validate with
  | error cause =>
    rw [valid] at passed
    contradiction
  | ok _ =>
    rw [valid] at passed
    obtain ⟨count, passed⟩ := guard_eq_ok.mp passed
    rw [ne_eq, not_not] at count
    refine ⟨rfl, count, fun position blob found => ?_⟩
    obtain ⟨_, ⟨sizes, commitments, versions⟩, _⟩ := BlobPayment.validate_eq_ok.mp valid
    have inside : position < payment.declared.length := by
      obtain ⟨bound, _⟩ := List.getElem?_eq_some_iff.mp found
      rw [BlobPayment.blobCount] at count sizes commitments versions
      rw [BlobPayment.declared, List.length_zipWith, List.length_zip, List.length_zip]
      omega
    have entry := List.getElem?_eq_getElem inside
    have paired : (blobs.zip payment.declared)[position]? =
        some (blob, payment.declared[position]) :=
      List.getElem?_zip_eq_some.mpr ⟨found, entry⟩
    have member : ((blob, payment.declared[position]), position) ∈
        (blobs.zip payment.declared).zipIdx := List.mem_zipIdx_iff_getElem?.mpr paired
    obtain ⟨publishable, describes⟩ := describes_of_checkBlob (forM_eq_ok.mp passed _ member)
    exact ⟨publishable, _, entry, describes⟩

/-- A blob transaction becomes a candidate only when its payment and its signer are accepted. The
candidate has its inner transaction and its blobs. -/
theorem of_ofBlobTx {blobTx : BlobTx} {consts : AppConsts} {candidate : BlobCandidate}
    (passed : ofBlobTx blobTx consts = .ok candidate) :
    (∃ tx, Tx.ofBytes candidate.tx = .ok tx ∧ tx.payment? = some candidate.payment ∧
      checkSigners tx.signers candidate.payment.signer = .ok ()) ∧
    checkBlobs consts.subtreeRootThreshold candidate.payment candidate.blobs = .ok () ∧
    blobTx = ⟨candidate.tx, candidate.blobs⟩ := by
  unfold ofBlobTx at passed
  cases decoded : Tx.ofBytes blobTx.tx with
  | error cause =>
    rw [decoded] at passed
    contradiction
  | ok tx =>
    rw [decoded] at passed
    dsimp only at passed
    cases pays : tx.payment? with
    | none =>
      rw [pays] at passed
      contradiction
    | some payment =>
      rw [pays] at passed
      obtain ⟨blobs, passed⟩ := check_bind_eq_ok.mp passed
      obtain ⟨signers, passed⟩ := check_bind_eq_ok.mp passed
      obtain ⟨_, same⟩ := guard_eq_ok.mp passed
      obtain rfl := Except.ok.inj same
      exact ⟨⟨tx, decoded, pays, signers⟩, blobs, rfl⟩

/-- A blob that may be published is accepted with a declaration that describes it. -/
theorem checkBlob_of_describes {threshold : Nat} {blob : Blob} {declared : DeclaredBlob}
    (valid : blob.validate = .ok ()) (describes : declared.Describes blob threshold)
    (position : Nat) : checkBlob threshold blob declared position = .ok () := by
  rw [checkBlob, valid, describes.commitment]
  dsimp only
  rw [if_neg (not_not.mpr describes.ns), if_neg (not_not.mpr describes.size),
    if_neg (not_not.mpr describes.shareVersion), if_neg (not_not.mpr rfl)]

/-- The blobs of a sound candidate are accepted with its payment. -/
theorem Sound.checkBlobs_eq_ok {candidate : BlobCandidate} {threshold : Nat}
    (sound : candidate.Sound threshold) :
    checkBlobs threshold candidate.payment candidate.blobs = .ok () := by
  rw [checkBlobs, sound.payment]
  dsimp only
  rw [if_neg (not_not.mpr sound.count)]
  apply forM_eq_ok.mpr
  rintro ⟨⟨blob, declared⟩, position⟩ member
  have paired := List.mem_zipIdx_iff_getElem?.mp member
  have own := List.getElem?_zip_eq_some.mp paired
  obtain ⟨other, found, describes⟩ := sound.described position blob own.1
  have same : other = declared := Option.some.inj (found.symm.trans own.2)
  rw [same] at describes
  apply checkBlob_of_describes _ describes
  exact sound.valid blob (List.mem_of_getElem? own.1)

/-- A sound candidate with enough gas is read from its transaction and its blobs. -/
theorem Sound.ofBlobTx_eq_ok {candidate : BlobCandidate} {consts : AppConsts} {tx : Tx}
    (sound : candidate.Sound consts.subtreeRootThreshold)
    (decoded : Tx.ofBytes candidate.tx = .ok tx)
    (gas : candidate.payment.gas consts.gasPerBlobByte ≤ tx.gasLimit.toNat) :
    ofBlobTx ⟨candidate.tx, candidate.blobs⟩ consts = .ok candidate := by
  obtain ⟨other, again, pays, signers⟩ := sound.signed
  have same : other = tx := Except.ok.inj (again.symm.trans decoded)
  rw [same] at pays signers
  rw [ofBlobTx, decoded]
  dsimp only
  rw [pays]
  apply check_bind_eq_ok.mpr
  constructor
  · exact sound.checkBlobs_eq_ok
  · apply check_bind_eq_ok.mpr
    constructor
    · exact checkSigners_eq_ok.mpr signers
    · rw [if_neg (Nat.not_lt.mpr gas)]

/-- A blob transaction becomes a candidate only when all is known of it. -/
theorem sound_of_ofBlobTx {blobTx : BlobTx} {consts : AppConsts} {candidate : BlobCandidate}
    (passed : ofBlobTx blobTx consts = .ok candidate) :
    candidate.Sound consts.subtreeRootThreshold := by
  obtain ⟨⟨tx, decoded, pays, signers⟩, blobs, _⟩ := of_ofBlobTx passed
  obtain ⟨valid, count, each⟩ := described_of_checkBlobs blobs
  refine ⟨⟨tx, decoded, pays, checkSigners_eq_ok.mp signers⟩, valid, count, ?_, ?_⟩
  · intro blob member
    obtain ⟨position, found⟩ := List.mem_iff_getElem?.mp member
    exact (each position blob found).1
  · exact fun position blob found => (each position blob found).2

end BlobCandidate

namespace Candidate

/-- What is known of a candidate: an ordinary one is neither marked nor a payment. -/
def Sound (threshold : Nat) : Candidate → Prop
  | .ordinary tx => IndexWrapper.isMarked tx = false ∧ BlobTx.isMarked tx = false ∧
      Tx.rawPaysForBlobs tx = false
  | .blob content => content.Sound threshold

/-- A submitted transaction becomes a candidate as it is when it is neither marked nor a payment,
and by its envelope when it is marked as a blob transaction. -/
theorem ofBytes_cases {raw : Bytes} {consts : AppConsts} {candidate : Candidate}
    (passed : ofBytes raw consts = .ok candidate) :
    (candidate = .ordinary raw ∧ IndexWrapper.isMarked raw = false ∧
      BlobTx.isMarked raw = false ∧ Tx.rawPaysForBlobs raw = false) ∨
    ∃ blobTx content, candidate = .blob content ∧ BlobTx.ofBytes raw = .ok blobTx ∧
      BlobCandidate.ofBlobTx blobTx consts = .ok content := by
  unfold ofBytes at passed
  cases large : consts.maxTxBytes.filter (· < raw.length) with
  | some limit =>
    rw [large] at passed
    contradiction
  | none =>
    rw [large] at passed
    dsimp only at passed
    obtain ⟨indexed, passed⟩ := guard_eq_ok.mp passed
    by_cases marked : BlobTx.isMarked raw = true
    · rw [if_pos marked, ofEnvelope] at passed
      cases read : BlobTx.ofBytes raw with
      | error cause =>
        rw [read] at passed
        contradiction
      | ok blobTx =>
        rw [read] at passed
        dsimp only at passed
        cases accepted : BlobCandidate.ofBlobTx blobTx consts with
        | error cause =>
          rw [accepted] at passed
          contradiction
        | ok content =>
          rw [accepted] at passed
          exact .inr ⟨blobTx, content, (Except.ok.inj passed).symm, rfl, accepted⟩
    · rw [if_neg marked] at passed
      obtain ⟨pays, same⟩ := guard_eq_ok.mp passed
      exact .inl ⟨(Except.ok.inj same).symm, Bool.eq_false_iff.mpr indexed,
        Bool.eq_false_iff.mpr marked, Bool.eq_false_iff.mpr pays⟩

/-- No limit is below the size of bytes that are not too large. -/
theorem not_oversized {raw : Bytes} {consts : AppConsts}
    (small : ∀ limit ∈ consts.maxTxBytes, raw.length ≤ limit) :
    consts.maxTxBytes.filter (· < raw.length) = none := by
  apply Option.filter_eq_none_iff.mpr
  intro limit member
  simpa using small limit member

/-- The envelope of a candidate is submitted as that candidate when it is not too large. -/
theorem ofBytes_of_envelope {raw : Bytes} {consts : AppConsts} {blobTx : BlobTx}
    {content : BlobCandidate} (small : ∀ limit ∈ consts.maxTxBytes, raw.length ≤ limit)
    (opened : BlobTx.ofBytes raw = .ok blobTx)
    (accepted : BlobCandidate.ofBlobTx blobTx consts = .ok content) :
    ofBytes raw consts = .ok (.blob content) := by
  have marked : BlobTx.isMarked raw = true := by
    by_contra missing
    rw [BlobTx.ofBytes, if_neg missing] at opened
    contradiction
  have unwrapped : ¬ IndexWrapper.isMarked raw = true := by
    rw [BlobTx.isMarked, beq_iff_eq] at marked
    rw [IndexWrapper.isMarked, marked]
    decide
  rw [ofBytes, not_oversized small]
  dsimp only
  rw [if_neg unwrapped, if_pos marked, ofEnvelope, opened]
  dsimp only
  rw [accepted]

/-- A submitted transaction becomes a candidate only when all is known of it. -/
theorem sound_of_ofBytes {raw : Bytes} {consts : AppConsts} {candidate : Candidate}
    (passed : ofBytes raw consts = .ok candidate) :
    candidate.Sound consts.subtreeRootThreshold := by
  rcases ofBytes_cases passed with ⟨rfl, plain⟩ | ⟨blobTx, content, rfl, _, accepted⟩
  · exact plain
  · exact BlobCandidate.sound_of_ofBlobTx accepted

/-- All is known of every candidate. -/
theorem sound_of_mem_collect {raws : List Bytes} {consts : AppConsts} {candidate : Candidate}
    (member : candidate ∈ collect raws consts) : candidate.Sound consts.subtreeRootThreshold := by
  obtain ⟨raw, _, found⟩ := List.mem_filterMap.mp member
  cases read : ofBytes raw consts with
  | error cause =>
    rw [read] at found
    contradiction
  | ok other =>
    rw [read] at found
    obtain rfl := Option.some.inj found
    exact sound_of_ofBytes read

end Candidate

section Single

variable {ns : Namespace} {commitment : Digest} {threshold : Nat}

/-- The blob of one byte in a namespace. -/
def Blob.single (ns : Namespace) : Blob := ⟨ns, [7], 0⟩

/-- The transaction that pays for the blob of one byte, with the gas for one share. -/
def Tx.single (ns : Namespace) (commitment : Digest) : Tx :=
  ⟨[.replicate 20 0], [.payment ⟨.replicate 20 0, [ns], [1], [commitment], [0]⟩], 0, 4096, ""⟩

/-- The candidate of that transaction. -/
def BlobCandidate.single (ns : Namespace) (commitment : Digest) : BlobCandidate :=
  ⟨Format.tx.encode (Tx.single ns commitment),
    ⟨.replicate 20 0, [ns], [1], [commitment], [0]⟩, [Blob.single ns]⟩

/-- The transaction is read back, whatever follows it. -/
theorem Tx.lawfulAt_single (ns : Namespace) (commitment : Digest) :
    Format.tx.LawfulAt (Tx.single ns commitment) := by
  apply Format.exact_tx.lawful
  change 182 < UInt64.size
  decide

/-- The transaction has 182 bytes. -/
theorem BlobCandidate.length_single (ns : Namespace) (commitment : Digest) :
    (BlobCandidate.single ns commitment).tx.length = 182 :=
  (Tx.lawfulAt_single ns commitment).size_eq

/-- Between two ordinary transactions the candidate stands between these. -/
theorem Candidate.collect_single {raw : Bytes}
    (read : ofBytes raw AppVersion.v3.consts = .ok (.blob (BlobCandidate.single ns commitment))) :
    collect [[1, 2], raw, [3]] AppVersion.v3.consts =
      [.ordinary [1, 2], .blob (BlobCandidate.single ns commitment), .ordinary [3]] := by
  have first : ofBytes [1, 2] AppVersion.v3.consts = .ok (.ordinary [1, 2]) := by rfl
  have last : ofBytes [3] AppVersion.v3.consts = .ok (.ordinary [3]) := by rfl
  simp [collect, first, read, last, Except.toOption]

variable (publishable : ns.validateForBlob = .ok ())
include publishable

/-- The blob may be published in a namespace for blobs. -/
theorem Blob.validate_single : (Blob.single ns).validate = .ok () :=
  Blob.validate_eq_ok.mpr ⟨publishable, List.cons_ne_nil _ _, rfl⟩

/-- The candidate is sound. -/
theorem BlobCandidate.sound_single
    (paid : blobCommitment (.single ns) threshold = .ok commitment) :
    (BlobCandidate.single ns commitment).Sound threshold := by
  constructor
  case signed => exact ⟨_, Wire.deserialize_encode (Tx.lawfulAt_single ns commitment), rfl, rfl⟩
  case payment =>
    refine BlobPayment.validate_eq_ok.mpr ⟨Nat.one_ne_zero, ⟨rfl, rfl, rfl⟩, ?_, ?_, ?_⟩
    · intro other member
      rw [List.mem_singleton.mp member]
      exact publishable
    · intro size member
      rw [List.mem_singleton.mp member]
      decide
    · intro version member
      rw [List.mem_singleton.mp member]
      decide
  case count => rfl
  case valid =>
    intro blob member
    rw [List.mem_singleton.mp member]
    exact Blob.validate_single publishable
  case described =>
    intro position blob found
    have inside : position < 1 := (List.getElem?_eq_some_iff.mp found).1
    have first : position = 0 := by omega
    rw [first] at found ⊢
    have same : Blob.single ns = blob := Option.some.inj found
    rw [← same]
    exact ⟨⟨ns, 1, commitment, 0⟩, rfl, rfl, rfl, rfl, paid⟩

/-- The candidate is submitted in its envelope. -/
theorem Candidate.exists_envelope_single
    (paid : blobCommitment (.single ns) AppVersion.v3.consts.subtreeRootThreshold =
      .ok commitment) :
    ∃ raw, ofBytes raw AppVersion.v3.consts = .ok (.blob (BlobCandidate.single ns commitment)) := by
  have size : Format.blobTx.size ⟨(BlobCandidate.single ns commitment).tx, [Blob.single ns]⟩ =
      241 := by
    change 4 + (8 + (BlobCandidate.single ns commitment).tx.length + (8 + (29 + (8 + 1 + 1)))) = 241
    rw [BlobCandidate.length_single]
  obtain ⟨_, raw, _, short, opened⟩ := BlobTx.isExact.written
    ⟨(BlobCandidate.single ns commitment).tx, [Blob.single ns]⟩
    (List.cons_ne_nil _ _) (by rw [size]; decide)
  refine ⟨raw, ofBytes_of_envelope ?_ opened ?_⟩
  · intro limit member
    have bound : 2097152 = limit := Option.some.inj member
    omega
  · apply (BlobCandidate.sound_single publishable paid).ofBlobTx_eq_ok
    · exact Wire.deserialize_encode (Tx.lawfulAt_single ns commitment)
    · have gas : (sparseSharesNeeded (1 : UInt32).toNat + 0) * shareSize * (8 : UInt32).toNat ≤
          (4096 : UInt64).toNat := by decide
      exact gas

end Single

end DataSquare
