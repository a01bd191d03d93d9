import DataSquare.Text.Hex

/-!
# Namespaces

A namespace partitions the square. It is one version byte followed by an id of 28 bytes; an id of
version zero starts with 18 zeros, so that users choose ten bytes, and an id of version 255 is
free. Only such byte strings are namespaces, so the rule is part of the type. Namespaces are
ordered by their bytes. Both ends of the order are reserved: the lowest 256 namespaces of version
zero and the highest 256 of version 255.
-/
namespace DataSquare

/-- The rule for the bytes of a namespace. -/
def IsNamespace (bytes : Bytes) : Prop :=
  bytes.length = 29 ∧ (bytes.head? = some 255 ∨ bytes.take 19 = List.replicate 19 0)

instance (bytes : Bytes) : Decidable (IsNamespace bytes) :=
  inferInstanceAs (Decidable (_ ∧ _))

/-- An identifier that partitions the square. -/
structure Namespace where
  /-- The version byte and the id. -/
  bytes : Bytes
  /-- They follow the rule for their version. -/
  valid : IsNamespace bytes
deriving DecidableEq, Repr

namespace Namespace

instance : LE Namespace := ⟨fun left right => left.bytes ≤ right.bytes⟩

instance : LT Namespace := ⟨fun left right => left.bytes < right.bytes⟩

instance (left right : Namespace) : Decidable (left ≤ right) :=
  inferInstanceAs (Decidable (left.bytes ≤ right.bytes))

instance (left right : Namespace) : Decidable (left < right) :=
  inferInstanceAs (Decidable (left.bytes < right.bytes))

/-- The lower of two namespaces. -/
def lower (left right : Namespace) : Namespace := if left ≤ right then left else right

/-- The higher of two namespaces. -/
def higher (left right : Namespace) : Namespace := if left ≤ right then right else left

/-- Equal bytes make equal namespaces. -/
theorem ext {left right : Namespace} (h : left.bytes = right.bytes) : left = right := by
  cases left; cases right; simp_all

/-- A namespace has 29 bytes. -/
@[simp] theorem length_bytes (ns : Namespace) : ns.bytes.length = 29 := ns.valid.1

/-- The namespace of version zero that is zero but for its last byte. -/
def primaryReserved (last : UInt8) : Namespace :=
  ⟨List.replicate 28 0 ++ [last], by simp [IsNamespace]⟩

/-- The namespace of version 255 that is 255 but for its last byte. -/
def secondaryReserved (last : UInt8) : Namespace :=
  ⟨List.replicate 28 255 ++ [last], by simp [IsNamespace]⟩

/-- The all zero namespace, reported by the root of an empty tree. -/
def zero : Namespace := primaryReserved 0x00

/-- The namespace of ordinary transactions. -/
def transaction : Namespace := primaryReserved 0x01

/-- The namespace set aside for intermediate state roots. -/
def intermediateStateRoots : Namespace := primaryReserved 0x02

/-- The namespace of transactions that pay for blobs. -/
def payForBlob : Namespace := primaryReserved 0x04

/-- The namespace of padding between transactions and blobs, which is also the highest one
reserved at the low end. -/
def reservedPadding : Namespace := primaryReserved 0xff

/-- The lowest namespace reserved at the high end. -/
def minSecondaryReserved : Namespace := secondaryReserved 0x00

/-- The namespace of padding after the last blob. -/
def tailPadding : Namespace := secondaryReserved 0xfe

/-- The namespace of erasure coded cells. -/
def parity : Namespace := secondaryReserved 0xff

end Namespace

/-- Why a byte string is no namespace, or a namespace not one for blobs. -/
inductive NamespaceError where
  /-- The whole has the wrong length. -/
  | invalidLength (got : Nat)
  /-- The id, or the part of it that users choose, has the wrong length. -/
  | invalidIdLength (got expected : Nat)
  /-- There is no such version, or it does not hold blobs. -/
  | unsupportedVersion (version : UInt8)
  /-- An id of version zero does not start with its zeros. -/
  | invalidVersionZeroPrefix
  /-- The namespace is reserved. -/
  | reserved (ns : Namespace)
deriving DecidableEq, Repr

namespace Namespace

/-- The version byte. -/
def version (ns : Namespace) : UInt8 := ns.bytes.headD 0

/-- The id of 28 bytes. -/
def id (ns : Namespace) : Bytes := ns.bytes.drop 1

/-- The text that shows a namespace. -/
def display (ns : Namespace) : String := Text.identifier ns.bytes

/-- The text that shows a namespace in diagnostics. -/
def debug (ns : Namespace) : String := Text.labelled "Namespace" ns.bytes

/-- The namespace of a version and an id of 28 bytes. -/
def ofParts (version : UInt8) (id : Bytes) : Except NamespaceError Namespace :=
  if hlength : id.length = 28 then
    if hzero : version = 0 then
      if hfront : id.take 18 = List.replicate 18 0 then
        .ok ⟨version :: id, by simp [IsNamespace, hlength, hzero, hfront, List.replicate_succ]⟩
      else .error .invalidVersionZeroPrefix
    else if hmax : version = 255 then
      .ok ⟨version :: id, by simp [IsNamespace, hlength, hmax]⟩
    else .error (.unsupportedVersion version)
  else .error (.invalidIdLength id.length 28)

/-- The namespace of version zero with the given bytes at the end of its id. -/
def ofUserId (userId : Bytes) : Except NamespaceError Namespace :=
  if userId.length ≤ 10 then
    ofParts 0 (List.replicate (28 - userId.length) 0 ++ userId)
  else .error (.invalidIdLength userId.length 10)

/-- The namespace with the given 29 bytes. -/
def ofBytes (bytes : Bytes) : Except NamespaceError Namespace :=
  match bytes with
  | [] => .error (.invalidLength 0)
  | version :: id =>
    if id.length = 28 then ofParts version id else .error (.invalidLength (id.length + 1))

/-- Whether a namespace is reserved at the low end. -/
def isPrimaryReserved (ns : Namespace) : Bool := ns ≤ reservedPadding

/-- Whether a namespace is reserved at the high end. -/
def isSecondaryReserved (ns : Namespace) : Bool := minSecondaryReserved ≤ ns

/-- Whether a namespace is reserved. -/
def isReserved (ns : Namespace) : Bool :=
  ns.isPrimaryReserved || ns.isSecondaryReserved

/-- Blobs live in namespaces of version zero that are not reserved. -/
def validateForBlob (ns : Namespace) : Except NamespaceError Unit :=
  if ns.version ≠ 0 then .error (.unsupportedVersion ns.version)
  else if ns.isReserved then .error (.reserved ns)
  else .ok ()

end Namespace

/-- The wording of a namespace error. -/
def NamespaceError.message : NamespaceError → String
  | .invalidLength got => s!"invalid namespace length: got {got}, expected 29"
  | .invalidIdLength got expected =>
    s!"invalid namespace id length: got {got}, expected {expected}"
  | .unsupportedVersion version => s!"unsupported namespace version {version}"
  | .invalidVersionZeroPrefix => "version zero namespace id must start with 18 zero bytes"
  | .reserved ns => s!"namespace {ns.display} is reserved"

instance : ToString NamespaceError := ⟨NamespaceError.message⟩

namespace Namespace

/-- Reading the bytes of a namespace gives it back. -/
theorem ofBytes_bytes (ns : Namespace) : ofBytes ns.bytes = .ok ns := by
  obtain ⟨bytes, hlength, hkind⟩ := ns
  match bytes, hlength, hkind with
  | version :: id, hlength, hkind =>
    have hid : id.length = 28 := by simpa using hlength
    by_cases hzero : version = 0
    · subst hzero
      have hfront : id.take 18 = List.replicate 18 0 := by
        simpa [List.replicate_succ] using hkind
      simp [ofBytes, ofParts, hid, hfront]
    · have hmax : version = 255 := by
        rcases hkind with hhead | hfront
        · simpa using hhead
        · simp [List.replicate_succ, hzero] at hfront
      simp [ofBytes, ofParts, hid, hmax]

/-- A namespace that is read has the bytes it was read from. -/
theorem bytes_of_ofBytes {bytes : Bytes} {ns : Namespace} (h : ofBytes bytes = .ok ns) :
    ns.bytes = bytes := by
  unfold ofBytes ofParts at h
  split at h
  · simp at h
  · repeat' split at h
    all_goals simp at h
    all_goals (subst h; rfl)

end Namespace

end DataSquare
