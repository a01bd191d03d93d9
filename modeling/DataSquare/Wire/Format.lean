import DataSquare.Wire.Error

/-!
# Wire formats

A format writes a value as bytes and reads a value back from the front of a byte string, with the
bytes after it. It also says how long an encoding is without writing it. Numbers have a fixed
width and the least significant byte first, lists and texts start with their length as a number
of 64 bits, alternatives with a number of 32 bits, and an optional value with one byte. Fields
follow each other without anything in between. A message is exactly one value, of at most 16 MiB
when it is written.
-/
namespace DataSquare

/-- A writer and a reader of one type of value. -/
structure Format (α : Type) where
  /-- The number of bytes of an encoding. -/
  size : α → Nat
  /-- The bytes of a value. -/
  encode : α → Bytes
  /-- The value at the front of a byte string, with the bytes after it. -/
  decode : Bytes → Except DecodeFault (α × Bytes)

namespace Format

variable {α β : Type}

/-- The first bytes and the bytes after them, if there are as many. -/
def takeExactly (count : Nat) (bytes : Bytes) (fault : DecodeFault) :
    Except DecodeFault (Bytes × Bytes) :=
  let front := bytes.take count
  if front.length = count then .ok (front, bytes.drop count) else .error fault

/-- Nothing at all. -/
def nothing : Format Unit where
  size _ := 0
  encode _ := []
  decode bytes := .ok ((), bytes)

/-- One byte. -/
def byte : Format UInt8 where
  size _ := 1
  encode value := [value]
  decode
    | [] => .error .endOfInput
    | byte :: rest => .ok (byte, rest)

/-- A number of 32 bits. -/
def word32 : Format UInt32 where
  size _ := 4
  encode value := littleEndian 4 value.toNat
  decode bytes := do
    let (front, rest) ← takeExactly 4 bytes .endOfInput
    .ok (UInt32.ofNat (ofLittleEndian front), rest)

/-- A number of 64 bits. -/
def word64 : Format UInt64 where
  size _ := 8
  encode value := littleEndian 8 value.toNat
  decode bytes := do
    let (front, rest) ← takeExactly 8 bytes .endOfInput
    .ok (UInt64.ofNat (ofLittleEndian front), rest)

/-- A byte string of a fixed width, which is written as it is. -/
def fixed (width : Nat) : Format (FixedBytes width) where
  size _ := width
  encode value := value.bytes
  decode bytes :=
    if h : (bytes.take width).length = width then .ok (⟨bytes.take width, h⟩, bytes.drop width)
    else .error .endOfInput

/-- The length of a list or text. -/
def length (count : Nat) : Bytes := littleEndian 8 count

/-- Reads the length of a list or text. -/
def readLength (bytes : Bytes) : Except DecodeFault (Nat × Bytes) := do
  let (front, rest) ← takeExactly 8 bytes .endOfInput
  .ok (ofLittleEndian front, rest)

/-- A byte string after its length. -/
def byteString : Format Bytes where
  size value := 8 + value.length
  encode value := length value.length ++ value
  decode bytes := do
    let (count, rest) ← readLength bytes
    takeExactly count rest .endOfInput

/-- A text after the length of its UTF-8 bytes. -/
def text : Format String where
  size value := 8 + value.utf8ByteSize
  encode value := length value.utf8ByteSize ++ Text.toUtf8 value
  decode bytes := do
    let (count, rest) ← readLength bytes
    let (front, rest) ← takeExactly count rest .endOfText
    match Text.ofUtf8 front with
    | .ok value => .ok (value, rest)
    | .error fault => .error (.invalidUtf8 fault)

/-- Two values in order. -/
def pair (left : Format α) (right : Format β) : Format (α × β) where
  size value := left.size value.1 + right.size value.2
  encode value := left.encode value.1 ++ right.encode value.2
  decode bytes := do
    let (first, rest) ← left.decode bytes
    let (second, rest) ← right.decode rest
    .ok ((first, second), rest)

/-- A type written as another one, when some values of the other are refused. -/
def refine (base : Format α) (read : α → Except DecodeFault β) (write : β → α) : Format β where
  size value := base.size (write value)
  encode value := base.encode (write value)
  decode bytes := do
    let (value, rest) ← base.decode bytes
    let value ← read value
    .ok (value, rest)

/-- A type written as another one. -/
def map (base : Format α) (read : α → β) (write : β → α) : Format β where
  size value := base.size (write value)
  encode value := base.encode (write value)
  decode bytes := do
    let (value, rest) ← base.decode bytes
    .ok (read value, rest)

/-- Reads `count` values after those already read, which are held last first. -/
def decodeMany (item : Format α) : Nat → List α → Bytes → Except DecodeFault (List α × Bytes)
  | 0, earlier, bytes => .ok (earlier.reverse, bytes)
  | count + 1, earlier, bytes =>
    match item.decode bytes with
    | .error fault => .error fault
    | .ok (value, rest) => decodeMany item count (value :: earlier) rest

/-- A list after its length. -/
def list (item : Format α) : Format (List α) where
  size values := 8 + values.foldr (fun value rest => item.size value + rest) 0
  encode values := length values.length ++ values.flatMap item.encode
  decode bytes := do
    let (count, rest) ← readLength bytes
    decodeMany item count [] rest

/-- A value that may be missing, after a byte that says whether it is there. -/
def optional (item : Format α) : Format (Option α) where
  size
    | none => 1
    | some value => 1 + item.size value
  encode
    | none => [0]
    | some value => 1 :: item.encode value
  decode
    | [] => .error .endOfInput
    | tag :: rest =>
      if tag = 0 then .ok (none, rest)
      else if tag = 1 then do
        let (value, rest) ← item.decode rest
        .ok (some value, rest)
      else .error (.invalidOptionTag tag)

/-- One of two alternatives after its number. -/
def either (left : Format α) (right : Format β) : Format (α ⊕ β) where
  size
    | .inl value => 4 + left.size value
    | .inr value => 4 + right.size value
  encode
    | .inl value => word32.encode 0 ++ left.encode value
    | .inr value => word32.encode 1 ++ right.encode value
  decode bytes := do
    let (tag, rest) ← word32.decode bytes
    if tag = 0 then
      let (value, rest) ← left.decode rest
      .ok (.inl value, rest)
    else if tag = 1 then
      let (value, rest) ← right.decode rest
      .ok (.inr value, rest)
    else .error (.unknownAlternative tag 2)

/-- A value after marker bytes. -/
def marked (marker : Bytes) (item : Format α) : Format α where
  size value := marker.length + item.size value
  encode value := marker ++ item.encode value
  decode bytes :=
    if bytes.take marker.length = marker then item.decode (bytes.drop marker.length)
    else .error .wrongMarker

/-- A namespace, written as its 29 bytes. -/
def ns : Format Namespace where
  size _ := 29
  encode value := value.bytes
  decode bytes := do
    let (front, rest) ← takeExactly 29 bytes .endOfInput
    match Namespace.ofBytes front with
    | .ok value => .ok (value, rest)
    | .error cause => .error (.namespaceError cause)

end Format

namespace Wire

variable {α : Type}

/-- The largest size of a message that is written. -/
abbrev sizeLimit : Nat := 16 * 1024 * 1024

/-- The size of a message, if it may be written. -/
def serializedSize (format : Format α) (value : α) : Except WireError Nat :=
  if format.size value ≤ sizeLimit then .ok (format.size value) else .error .sizeLimit

/-- Writes a message. -/
def serialize (format : Format α) (value : α) : Except WireError Bytes :=
  if format.size value ≤ sizeLimit then .ok (format.encode value) else .error .sizeLimit

/-- Reads a message, which holds exactly one value. -/
def deserialize (format : Format α) (bytes : Bytes) : Except WireError α :=
  match format.decode bytes with
  | .error fault => .error (.malformed fault)
  | .ok (value, []) => .ok value
  | .ok (_, _ :: _) => .error (.malformed .trailingBytes)

end Wire

end DataSquare
