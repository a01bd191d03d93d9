import DataSquare.Tx
import DataSquare.Proofs.Outcome

/-!
# Blobs and payments on their own

What blobs and payments are asked for before anything else is known: the rules for one blob, the
rules for one payment, and the declarations that the four lists of a payment make together.
-/
namespace DataSquare

/-- A blob may be published when it has a namespace for blobs, data and a version that can be
read. -/
theorem Blob.validate_eq_ok {blob : Blob} : blob.validate = .ok () ↔
    blob.ns.validateForBlob = .ok () ∧ blob.data ≠ [] ∧
      supportedShareVersions.contains blob.shareVersion = true := by
  unfold Blob.validate
  cases blob.ns.validateForBlob with
  | error cause => simp
  | ok _ => simp [guard_eq_ok]

/-- A payment is sound on its own when it has as many namespaces as sizes, commitments and versions,
at least one, and each of them may be declared. -/
theorem BlobPayment.validate_eq_ok {payment : BlobPayment} : payment.validate = .ok () ↔
    payment.blobCount ≠ 0 ∧ (payment.blobSizes.length = payment.blobCount ∧
      payment.commitments.length = payment.blobCount ∧
      payment.shareVersions.length = payment.blobCount) ∧
    (∀ ns ∈ payment.namespaces, ns.validateForBlob = .ok ()) ∧
    (∀ size ∈ payment.blobSizes, size ≠ 0) ∧
    ∀ version ∈ payment.shareVersions, supportedShareVersions.contains version = true := by
  unfold BlobPayment.validate
  simp only [guard_eq_ok, not_or, Decidable.not_not, ne_eq]
  refine and_congr_right fun _ => and_congr_right fun _ => ?_
  rw [← forM_eq_ok]
  cases payment.namespaces.forM Namespace.validateForBlob with
  | error cause => simp
  | ok _ =>
    simp only [true_and]
    have sizes : payment.blobSizes.findIdx? (· == 0) = none ↔
        ∀ size ∈ payment.blobSizes, size ≠ 0 := by
      simp [List.findIdx?_eq_none_iff]
    have versions : payment.shareVersions.find?
        (fun version => !supportedShareVersions.contains version) = none ↔
          ∀ version ∈ payment.shareVersions, supportedShareVersions.contains version = true := by
      simp [List.find?_eq_none]
    rw [← sizes, ← versions]
    cases payment.blobSizes.findIdx? (· == 0) with
    | some position => simp
    | none =>
      cases payment.shareVersions.find?
        (fun version => !supportedShareVersions.contains version) <;> simp

/-- The declaration at a position is made of the entries of all four lists there. -/
theorem BlobPayment.getElem?_declared (payment : BlobPayment) (position : Nat) :
    payment.declared[position]? = (do
      let ns ← payment.namespaces[position]?
      let size ← payment.blobSizes[position]?
      let commitment ← payment.commitments[position]?
      let version ← payment.shareVersions[position]?
      some ⟨ns, size, commitment, version⟩) := by
  simp only [declared, List.zip, List.getElem?_zipWith]
  cases payment.namespaces[position]? <;> cases payment.blobSizes[position]? <;>
    cases payment.commitments[position]? <;> cases payment.shareVersions[position]? <;> rfl

end DataSquare
