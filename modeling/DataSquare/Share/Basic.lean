import DataSquare.Namespace
import DataSquare.Share.Count

/-!
# Shares

A share is the unit of the square: 512 bytes that start with a namespace and an info byte. The
info byte holds a version and whether the share starts a sequence. A share that starts one goes
on with the length of the sequence, and a compact share, one in a namespace of transactions, with
four reserved bytes that point at the first unit starting in it. What follows is content. A padding
share starts a sequence of length zero. It stands after a blob in the namespace of that blob,
between the transactions and the first blob in a namespace of its own, and after the last blob in
another one.
-/
namespace DataSquare

/-- The byte that holds the version of a share and whether it starts a sequence. -/
structure InfoByte where
  /-- Twice the version, plus one at the start of a sequence. -/
  value : UInt8
deriving DecidableEq

namespace InfoByte

/-- The version of the share. -/
def version (info : InfoByte) : UInt8 := info.value >>> 1

/-- Whether the share starts a sequence. -/
def isSequenceStart (info : InfoByte) : Bool := info.value &&& 1 == 1

end InfoByte

/-- What is wrong with shares that are read or written. -/
inductive ShareError where
  /-- A share has the wrong number of bytes. -/
  | invalidSize (size : Nat)
  /-- A version is not supported. -/
  | unsupportedVersion (version : UInt8)
  /-- A share starts with no namespace. -/
  | namespaceError (cause : NamespaceError)
  /-- A sequence does not start where one has to. -/
  | missingSequenceStart (position : Nat)
  /-- A sequence starts inside another one. -/
  | unexpectedSequenceStart (position : Nat)
  /-- The namespace changes inside a sequence. -/
  | namespaceChanged (position : Nat)
  /-- The number of shares is not what the length of the sequence asks for. -/
  | sequenceLengthMismatch (declared : UInt32) (needed supplied : Nat)
  /-- The reserved bytes do not point at content. -/
  | invalidReservedBytes (reserved : UInt32)
  /-- A unit runs past the end of its sequence. -/
  | truncatedUnit
  /-- The length in front of a unit cannot be read. -/
  | invalidDelimiter
  /-- A sequence is too long for its length field. -/
  | sequenceTooLong (length : Nat)
  /-- There are no shares. -/
  | empty
deriving DecidableEq, Repr

namespace ShareError

/-- The wording of a share error. -/
def message : ShareError → String
  | .invalidSize size => s!"malformed share: expected 512 bytes, got {size}"
  | .unsupportedVersion version => s!"malformed share: share version {version} is not supported"
  | .namespaceError cause => s!"malformed share: invalid namespace: {cause.message}"
  | .missingSequenceStart position =>
    s!"malformed share: expected a sequence start at share {position}"
  | .unexpectedSequenceStart position =>
    s!"malformed share: unexpected sequence start at share {position}"
  | .namespaceChanged position =>
    s!"malformed share: namespace changes inside a sequence at share {position}"
  | .sequenceLengthMismatch declared needed supplied =>
    s!"malformed share: sequence length {declared} needs {needed} shares, got {supplied}"
  | .invalidReservedBytes reserved =>
    s!"malformed share: reserved bytes point outside the share ({reserved})"
  | .truncatedUnit => "malformed share: unit length runs past the end of the sequence"
  | .invalidDelimiter => "malformed share: invalid unit length delimiter"
  | .sequenceTooLong length => s!"sequence of {length} bytes does not fit the length field"
  | .empty => "no shares supplied"

instance : ToString ShareError := ⟨message⟩

/-- Whether an error describes a share that breaks its structure. All but a sequence that is too
long do. -/
def isMalformed : ShareError → Bool
  | .sequenceTooLong _ => false
  | _ => true

end ShareError

/-- The largest version an info byte holds. -/
abbrev maxShareVersion : UInt8 := 127

/-- The versions of shares that can be read. -/
def supportedShareVersions : List UInt8 := [0]

/-- The info byte of a version that fits it. -/
def InfoByte.make (version : UInt8) (isSequenceStart : Bool) : Except ShareError InfoByte :=
  if version ≤ maxShareVersion then
    .ok ⟨version <<< 1 ||| (if isSequenceStart then 1 else 0)⟩
  else .error (.unsupportedVersion version)

/-- A unit of the square. -/
structure Share where
  /-- The bytes of header and content. -/
  bytes : Bytes
  /-- There are 512 of them. -/
  length_eq : bytes.length = shareSize
deriving DecidableEq

namespace Share

/-- Equal bytes make equal shares. -/
theorem ext {left right : Share} (h : left.bytes = right.bytes) : left = right := by
  cases left; cases right; simp_all

/-- The bytes that stand for a namespace. -/
def namespaceBytes (share : Share) : Bytes := share.bytes.take 29

/-- The namespace of a share, which a share from outside may lack. -/
def ns (share : Share) : Except NamespaceError Namespace := Namespace.ofBytes share.namespaceBytes

/-- The info byte. -/
def info (share : Share) : InfoByte := ⟨(share.bytes.drop 29).headD 0⟩

/-- Whether a share starts a sequence. -/
def isSequenceStart (share : Share) : Bool := share.info.isSequenceStart

/-- The length of the sequence a share starts. -/
def sequenceLength (share : Share) : Option UInt32 :=
  if share.isSequenceStart then
    some (UInt32.ofNat (ofBigEndian ((share.bytes.drop 30).take 4)))
  else none

/-- Whether a share is in one of the two namespaces of transactions. -/
def isCompact (share : Share) : Bool :=
  match share.ns with
  | .ok ns => ns == Namespace.transaction || ns == Namespace.payForBlob
  | .error _ => false

/-- Whether a share is padding: it starts a sequence without content. -/
def isPadding (share : Share) : Bool := share.sequenceLength == some 0

/-- The number of bytes before the content. -/
def headerLength (share : Share) : Nat :=
  30 + (if share.isSequenceStart then 4 else 0) + (if share.isCompact then 4 else 0)

/-- The reserved bytes of a compact share. -/
def reservedBytes (share : Share) : Option UInt32 :=
  if share.isCompact then
    some (UInt32.ofNat (ofBigEndian ((share.bytes.drop (share.headerLength - 4)).take 4)))
  else none

/-- The bytes after the header. -/
def content (share : Share) : Bytes := share.bytes.drop share.headerLength

/-- The share with the given 512 bytes, if its version is supported. -/
def ofBytes (bytes : Bytes) : Except ShareError Share :=
  if h : bytes.length = shareSize then
    let share : Share := ⟨bytes, h⟩
    if supportedShareVersions.contains share.info.version then .ok share
    else .error (.unsupportedVersion share.info.version)
  else .error (.invalidSize bytes.length)

/-- The header of a share made of its parts. -/
def header (ns : Namespace) (info : InfoByte) (sequenceLength reserved : Option UInt32) : Bytes :=
  ns.bytes ++ [info.value] ++
    (sequenceLength.map fun length => bigEndian 4 length.toNat).getD [] ++
    (reserved.map fun position => bigEndian 4 position.toNat).getD []

/-- The share made of its parts, with zeros after content that does not fill it. -/
def build (ns : Namespace) (info : InfoByte) (sequenceLength reserved : Option UInt32)
    (content : Bytes) : Share :=
  let whole := FixedBytes.fit shareSize (header ns info sequenceLength reserved ++ content)
  ⟨whole.bytes, whole.length_eq⟩

/-- The padding share of a namespace. -/
def padding (ns : Namespace) : Share := build ns ⟨1⟩ (some 0) none []

/-- Padding after a blob, in the namespace of that blob. -/
def namespacedPadding (ns : Namespace) (count : Nat) : List Share :=
  List.replicate count (padding ns)

/-- Padding between the transactions and the first blob. -/
def reservedPadding (count : Nat) : List Share :=
  namespacedPadding Namespace.reservedPadding count

/-- Padding after the last blob. -/
def tailPadding (count : Nat) : List Share := namespacedPadding Namespace.tailPadding count

/-- The text that shows a share in diagnostics. -/
def debug (share : Share) : String :=
  let length := match share.sequenceLength with
    | some length => s!"Some({length})"
    | none => "None"
  "Share \x7b namespace: \"" ++ Text.hex share.namespaceBytes ++ "\", info: InfoByte(" ++
    toString share.info.value ++ "), sequence_len: " ++ length ++ ", .. \x7d"

end Share

end DataSquare
