import DataSquare.Proofs.Namespace
import DataSquare.Proofs.Outcome
import DataSquare.Proofs.Share.Parts
import DataSquare.Share.Sparse

/-!
# Sparse sequences

Data that fits its length field takes a fixed number of shares, all in its namespace, and their
contents put together give it back. Since the first share of a sequence tells the namespace, the
version and the length, no two blobs have shares at the start of one run of shares.
-/
namespace DataSquare

namespace InfoByte

/-- The info byte of the first share of a sequence. -/
def start (version : UInt8) : InfoByte := ⟨version <<< 1 ||| 1⟩

/-- The info byte of the later shares of a sequence. -/
def later (version : UInt8) : InfoByte := ⟨version <<< 1 ||| 0⟩

/-- A version that fits an info byte is one below 128. -/
theorem make_eq_ok {version : UInt8} {isStart : Bool} {info : InfoByte} :
    make version isStart = .ok info ↔
      version ≤ maxShareVersion ∧ info = if isStart then start version else later version := by
  unfold make
  by_cases fits : version ≤ maxShareVersion <;> cases isStart <;> simp [fits, start, later, eq_comm]

/-- What holds of the first 256 numbers as bytes holds of every byte. -/
theorem forall_byte {holds : UInt8 → Prop} (each : ∀ value < 256, holds (UInt8.ofNat value))
    (byte : UInt8) : holds byte := by
  have own := each byte.toNat byte.toNat_lt
  rwa [UInt8.ofNat_toNat] at own

/-- The lowest bit of the first info byte is set. -/
theorem isSequenceStart_start : ∀ version : UInt8, (start version).isSequenceStart = true :=
  forall_byte (by decide +kernel)

/-- The lowest bit of later info bytes is not set. -/
theorem isSequenceStart_later : ∀ version : UInt8, (later version).isSequenceStart = false :=
  forall_byte (by decide +kernel)

/-- The first info byte holds its version. -/
theorem version_start {version : UInt8} (fits : version ≤ maxShareVersion) :
    (start version).version = version := by
  have each : ∀ version : UInt8, version ≤ maxShareVersion → (start version).version = version :=
    forall_byte (by decide +kernel)
  exact each version fits

/-- Turning the lowest bit over turns the mark of a first share over. -/
theorem isSequenceStart_flip : ∀ byte : UInt8,
    (⟨byte ^^^ 1⟩ : InfoByte).isSequenceStart = !(⟨byte⟩ : InfoByte).isSequenceStart :=
  forall_byte (by decide +kernel)

end InfoByte

namespace Sparse

/-- The shares of data whose length and version fit their fields. -/
def sharesOf (ns : Namespace) (version : UInt8) (data : Bytes) : List Share :=
  Share.build ns (.start version) (some (UInt32.ofNat data.length)) none
      (data.take firstSparseContent) ::
    (pieces laterSparseContent (data.drop firstSparseContent)).map fun piece =>
      Share.build ns (.later version) none none piece

variable {ns : Namespace} {version : UInt8} {data : Bytes}

/-- Data is written exactly when its length and version fit their fields. -/
theorem write_eq_ok {shares : List Share} : write ns version data = .ok shares ↔
    data.length < UInt32.size ∧ version ≤ maxShareVersion ∧ shares = sharesOf ns version data := by
  unfold write
  by_cases short : data.length < UInt32.size
  · simp only [bind_eq_ok, InfoByte.make_eq_ok, short, true_and, if_true,
      Bool.false_eq_true, if_false, Except.ok.injEq]
    constructor
    · rintro ⟨_, ⟨fits, rfl⟩, _, ⟨_, rfl⟩, rfl⟩
      exact ⟨fits, rfl⟩
    · rintro ⟨fits, rfl⟩
      exact ⟨_, ⟨fits, rfl⟩, _, ⟨fits, rfl⟩, rfl⟩
  · simp [short]

/-- Every share of data stands in its namespace. -/
theorem ns_of_mem_sharesOf {share : Share} (member : share ∈ sharesOf ns version data) :
    share.ns = .ok ns := by
  rcases List.mem_cons.mp member with rfl | rest
  · exact Share.ns_build
  · obtain ⟨piece, _, rfl⟩ := List.mem_map.mp rest
    exact Share.ns_build

/-- Data takes as many shares as its length needs. -/
theorem length_sharesOf (nonempty : data ≠ []) :
    (sharesOf ns version data).length = sparseSharesNeeded data.length := by
  have positive := List.length_pos_iff.mpr nonempty
  rw [sharesOf, List.length_cons, List.length_map, length_pieces (by decide), List.length_drop,
    sparseSharesNeeded, sharesNeeded, if_neg (show data.length ≠ 0 by omega)]
  split
  · rename_i short
    rw [Nat.sub_eq_zero_of_le short]
    rfl
  · omega

/-- What stands behind the header of a share that has no reserved bytes. -/
def filling (share : Share) : Bytes := share.bytes.drop (if share.isSequenceStart then 34 else 30)

/-- A share that is not compact has no reserved bytes in front of its content. -/
theorem content_eq_filling {share : Share} (sparse : share.isCompact = false) :
    share.content = filling share := by
  rw [Share.content, filling, Share.headerLength, sparse]
  cases share.isSequenceStart <;> rfl

/-- The first share is filled by the front of the data, and zeros after data that ends in it. -/
theorem filling_first (version : UInt8) {front : Bytes} {count : UInt32}
    (short : front.length ≤ firstSparseContent) :
    filling (Share.build ns (.start version) (some count) none front) =
      front ++ List.replicate (firstSparseContent - front.length) 0 := by
  have header : (Share.header ns (.start version) (some count) none).length = 34 := by
    rw [Share.length_header]
    rfl
  have fits : 34 + front.length ≤ shareSize := Nat.add_le_add_left short 34
  rw [filling, Share.isSequenceStart_build, InfoByte.isSequenceStart_start, if_pos rfl,
    Share.bytes_build (by rwa [header]), List.drop_left' header, header]
  change front ++ List.replicate (512 - (34 + front.length)) 0 =
    front ++ List.replicate (478 - front.length) 0
  congr 2
  omega

/-- A later share is filled by its piece of the data, and zeros after the last piece. -/
theorem filling_later {piece : Bytes} (short : piece.length ≤ laterSparseContent) :
    filling (Share.build ns (.later version) none none piece) =
      piece ++ List.replicate (laterSparseContent - piece.length) 0 := by
  have header : (Share.header ns (.later version) none none).length = 30 := by
    rw [Share.length_header]
    rfl
  have fits : 30 + piece.length ≤ shareSize := Nat.add_le_add_left short 30
  rw [filling, Share.isSequenceStart_build, InfoByte.isSequenceStart_later,
    if_neg Bool.false_ne_true, Share.bytes_build (by rwa [header]), List.drop_left' header, header]
  change piece ++ List.replicate (512 - (30 + piece.length)) 0 =
    piece ++ List.replicate (482 - piece.length) 0
  congr 2
  omega

/-- What fills the shares of data, put together, starts with the data. -/
theorem take_filling_sharesOf (ns : Namespace) (version : UInt8) (data : Bytes) :
    ((sharesOf ns version data).flatMap filling).take data.length = data := by
  symm
  have later : ((pieces laterSparseContent (data.drop firstSparseContent)).flatMap fun piece =>
      filling (Share.build ns (.later version) none none piece)) =
      (pieces laterSparseContent (data.drop firstSparseContent)).flatMap fun piece =>
        piece ++ List.replicate (laterSparseContent - piece.length) 0 :=
    List.flatMap_congr fun piece member =>
      filling_later (length_le_of_mem_pieces (by decide) member)
  rw [← List.prefix_iff_eq_take, sharesOf, List.flatMap_cons,
    filling_first version (List.length_take_le _ _), List.flatMap_map, later]
  exact prefix_padded_pieces (by decide) data

/-- The contents of the shares of data that is not a transaction, put together, start with the
data. -/
theorem take_content_sharesOf (version : UInt8) (data : Bytes)
    (sparse : (ns == Namespace.transaction || ns == Namespace.payForBlob) = false) :
    ((sharesOf ns version data).flatMap Share.content).take data.length = data := by
  have same : (sharesOf ns version data).flatMap Share.content =
      (sharesOf ns version data).flatMap filling := by
    apply List.flatMap_congr
    intro share member
    apply content_eq_filling
    rw [Share.isCompact, ns_of_mem_sharesOf member]
    exact sparse
  rw [same]
  exact take_filling_sharesOf ns version data

/-- Sequences have as many shares when their data have one length. -/
theorem length_sharesOf_congr {other : Namespace} {otherVersion : UInt8} {otherData : Bytes}
    (same : data.length = otherData.length) :
    (sharesOf ns version data).length = (sharesOf other otherVersion otherData).length := by
  rw [sharesOf, sharesOf, List.length_cons, List.length_cons, List.length_map, List.length_map,
    length_pieces (by decide), length_pieces (by decide), List.length_drop, List.length_drop, same]

/-- Only one sequence stands at the start of a run of shares. -/
theorem sharesOf_unique {other : Namespace} {otherVersion : UInt8} {otherData : Bytes}
    {shares : List Share} (short : data.length < UInt32.size) (fits : version ≤ maxShareVersion)
    (otherShort : otherData.length < UInt32.size) (otherFits : otherVersion ≤ maxShareVersion)
    (stands : sharesOf ns version data <+: shares)
    (otherStands : sharesOf other otherVersion otherData <+: shares) :
    ns = other ∧ version = otherVersion ∧ data = otherData := by
  have heads : Share.build ns (.start version) (some (UInt32.ofNat data.length)) none
      (data.take firstSparseContent) = Share.build other (.start otherVersion)
        (some (UInt32.ofNat otherData.length)) none (otherData.take firstSparseContent) := by
    obtain ⟨rest, rfl⟩ := stands
    obtain ⟨otherRest, same⟩ := otherStands
    exact (List.cons.inj same).1.symm
  have namespaces : ns = other := by
    have equal := congrArg Share.ns heads
    rw [Share.ns_build, Share.ns_build] at equal
    exact Except.ok.inj equal
  have versions : version = otherVersion := by
    have equal := congrArg (fun share => share.info.version) heads
    simp only [Share.info_build] at equal
    rwa [InfoByte.version_start fits, InfoByte.version_start otherFits] at equal
  have lengths : data.length = otherData.length := by
    have equal := congrArg Share.sequenceLength heads
    rw [Share.sequenceLength_build (InfoByte.isSequenceStart_start version),
      Share.sequenceLength_build (InfoByte.isSequenceStart_start otherVersion)] at equal
    have words := congrArg UInt32.toNat (Option.some.inj equal)
    rwa [UInt32.toNat_ofNat_of_lt' short, UInt32.toNat_ofNat_of_lt' otherShort] at words
  have whole : sharesOf ns version data = sharesOf other otherVersion otherData := by
    rw [List.prefix_iff_eq_take.mp stands, List.prefix_iff_eq_take.mp otherStands,
      length_sharesOf_congr lengths]
  refine ⟨namespaces, versions, ?_⟩
  have contents := take_filling_sharesOf ns version data
  rw [whole, lengths] at contents
  rw [← contents]
  exact take_filling_sharesOf other otherVersion otherData

end Sparse

/-- The shares of a blob whose size and version fit their fields. -/
def Blob.shares (blob : Blob) : List Share :=
  Sparse.sharesOf blob.ns blob.shareVersion blob.data

/-- Whether the size and version of a blob fit their fields. -/
def Blob.IsWritable (blob : Blob) : Prop :=
  blob.data.length < UInt32.size ∧ blob.shareVersion ≤ maxShareVersion

/-- A blob is written exactly when its size and version fit their fields. -/
theorem Sparse.splitBlob_eq_ok {blob : Blob} {shares : List Share} :
    splitBlob blob = .ok shares ↔ blob.IsWritable ∧ shares = blob.shares := by
  rw [splitBlob, write_eq_ok, Blob.IsWritable, Blob.shares, and_assoc]

/-- Every share of a blob stands in its namespace. -/
theorem Blob.ns_of_mem_shares {blob : Blob} {share : Share} (member : share ∈ blob.shares) :
    share.ns = .ok blob.ns :=
  Sparse.ns_of_mem_sharesOf member

/-- Blobs are equal when all their parts are. -/
theorem Blob.ext {left right : Blob} (ns : left.ns = right.ns) (data : left.data = right.data)
    (version : left.shareVersion = right.shareVersion) : left = right := by
  cases left
  cases right
  simp_all

/-- A blob with data takes as many shares as counted. -/
theorem Blob.length_shares {blob : Blob} (nonempty : blob.data ≠ []) :
    blob.shares.length = blob.shareCount :=
  Sparse.length_sharesOf nonempty

/-- A blob takes at least one share. -/
theorem Blob.length_shares_pos (blob : Blob) : 0 < blob.shares.length := Nat.succ_pos _

end DataSquare
