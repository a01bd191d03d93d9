import DataSquare.Namespace
import DataSquare.Text.Utf8

/-!
# Wire errors

Why a byte string does not decode, and why a value does not encode. Reading goes from the front
and stops at the first fault.
-/
namespace DataSquare

/-- The first fault of a byte string that is decoded. -/
inductive DecodeFault where
  /-- The input ends inside a number, an array or a list. -/
  | endOfInput
  /-- The input ends inside a text. -/
  | endOfText
  /-- A text is not UTF-8. -/
  | invalidUtf8 (fault : Text.Utf8Fault)
  /-- There are only `count` alternatives. -/
  | unknownAlternative (tag : UInt32) (count : Nat)
  /-- The byte in front of an optional value is neither zero nor one. -/
  | invalidOptionTag (tag : UInt8)
  /-- A namespace does not follow its rule. -/
  | namespaceError (cause : NamespaceError)
  /-- The marker of an envelope is missing. -/
  | wrongMarker
  /-- Bytes are left over. -/
  | trailingBytes
deriving DecidableEq, Repr

/-- The wording of a decoding fault. -/
def DecodeFault.message : DecodeFault → String
  | .endOfInput => "io error: unexpected end of file"
  | .endOfText => "io error: "
  | .invalidUtf8 fault => s!"string is not valid utf8: {fault.message}"
  | .unknownAlternative tag count =>
    s!"invalid value: integer `{tag}`, expected variant index 0 <= i < {count}"
  | .invalidOptionTag tag => s!"tag for enum is not valid, found {tag}"
  | .namespaceError cause => cause.message
  | .wrongMarker => "envelope marker expected"
  | .trailingBytes => "Slice had bytes remaining after deserialization"

instance : ToString DecodeFault := ⟨DecodeFault.message⟩

/-- What goes wrong on the wire. -/
inductive WireError where
  /-- An encoding would be larger than is allowed. -/
  | sizeLimit
  /-- A byte string does not decode. -/
  | malformed (fault : DecodeFault)
deriving DecidableEq, Repr

/-- The wording of a wire error. -/
def WireError.message : WireError → String
  | .sizeLimit => "Failed to serialize message: the size limit has been reached"
  | .malformed fault => s!"Failed to deserialize message: {fault.message}"

instance : ToString WireError := ⟨WireError.message⟩

end DataSquare
