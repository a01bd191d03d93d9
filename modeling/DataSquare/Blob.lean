import DataSquare.Share.Basic

/-!
# Blobs

A blob is data in a namespace that a transaction pays for. It takes a sparse sequence of shares
of its own.
-/
namespace DataSquare

/-- Data in a namespace, with the version of the shares that hold it. -/
structure Blob where
  /-- The namespace the data is published in. -/
  ns : Namespace
  /-- The data. -/
  data : Bytes
  /-- The version of the shares. -/
  shareVersion : UInt8
deriving DecidableEq

/-- Why a blob may not be published. -/
inductive BlobError where
  /-- There is no data. -/
  | emptyData
  /-- The version of the shares cannot be read. -/
  | unsupportedShareVersion (version : UInt8)
  /-- The namespace is not one for blobs. -/
  | namespaceError (cause : NamespaceError)
deriving DecidableEq, Repr

/-- The wording of a blob error. -/
def BlobError.message : BlobError → String
  | .emptyData => "blob data is empty"
  | .unsupportedShareVersion version => s!"unsupported share version {version}"
  | .namespaceError cause => cause.message

instance : ToString BlobError := ⟨BlobError.message⟩

namespace Blob

/-- The number of bytes of data. -/
def size (blob : Blob) : Nat := blob.data.length

/-- The number of shares a blob takes. -/
def shareCount (blob : Blob) : Nat := sparseSharesNeeded blob.size

/-- A blob is published in a namespace for blobs, has data and a version that can be read. -/
def validate (blob : Blob) : Except BlobError Unit :=
  match blob.ns.validateForBlob with
  | .error cause => .error (.namespaceError cause)
  | .ok () =>
    if blob.data.isEmpty then .error .emptyData
    else if supportedShareVersions.contains blob.shareVersion then .ok ()
    else .error (.unsupportedShareVersion blob.shareVersion)

end Blob

end DataSquare
