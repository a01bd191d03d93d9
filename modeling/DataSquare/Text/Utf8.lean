import DataSquare.Bytes

/-!
# UTF-8 text

Text travels as UTF-8. A byte string that is not UTF-8 is refused with the position of its first
fault: how many bytes at the front are well formed, and how many bytes after them make up the
faulty sequence, unless the input merely ends inside one.
-/
namespace DataSquare.Text

/-- The first place where a byte string stops being UTF-8. -/
structure Utf8Fault where
  /-- The number of well formed bytes before the fault. -/
  index : Nat
  /-- The number of bytes of the faulty sequence, or nothing when the input ends inside it. -/
  length : Option Nat
deriving DecidableEq, Repr

namespace Utf8Fault

/-- The wording of a fault. -/
def message (fault : Utf8Fault) : String :=
  match fault.length with
  | some length => s!"invalid utf-8 sequence of {length} bytes from index {fault.index}"
  | none => s!"incomplete utf-8 byte sequence from index {fault.index}"

instance : ToString Utf8Fault := ⟨message⟩

end Utf8Fault

/-- Whether a byte continues a sequence. -/
def isContinuation (byte : UInt8) : Bool := 0x80 ≤ byte && byte ≤ 0xbf

/-- Whether a byte may follow the first byte of a sequence of three. -/
def isSecondOfThree (first second : UInt8) : Bool :=
  if first = 0xe0 then 0xa0 ≤ second && second ≤ 0xbf
  else if first = 0xed then 0x80 ≤ second && second ≤ 0x9f
  else isContinuation second

/-- Whether a byte may follow the first byte of a sequence of four. -/
def isSecondOfFour (first second : UInt8) : Bool :=
  if first = 0xf0 then 0x90 ≤ second && second ≤ 0xbf
  else if first = 0xf4 then 0x80 ≤ second && second ≤ 0x8f
  else isContinuation second

/-- The first fault of a byte string whose front of `index` bytes has none. -/
def utf8Fault (index : Nat) : Bytes → Option Utf8Fault
  | [] => none
  | first :: rest =>
    if first < 0x80 then utf8Fault (index + 1) rest
    else if first < 0xc2 || 0xf4 < first then some ⟨index, some 1⟩
    else if first < 0xe0 then
      match rest with
      | [] => some ⟨index, none⟩
      | second :: rest =>
        if isContinuation second then utf8Fault (index + 2) rest else some ⟨index, some 1⟩
    else if first < 0xf0 then
      match rest with
      | [] => some ⟨index, none⟩
      | [second] => some ⟨index, if isSecondOfThree first second then none else some 1⟩
      | second :: third :: rest =>
        if !isSecondOfThree first second then some ⟨index, some 1⟩
        else if !isContinuation third then some ⟨index, some 2⟩
        else utf8Fault (index + 3) rest
    else
      match rest with
      | [] => some ⟨index, none⟩
      | [second] => some ⟨index, if isSecondOfFour first second then none else some 1⟩
      | [second, third] =>
        some ⟨index,
          if !isSecondOfFour first second then some 1
          else if !isContinuation third then some 2 else none⟩
      | second :: third :: fourth :: rest =>
        if !isSecondOfFour first second then some ⟨index, some 1⟩
        else if !isContinuation third then some ⟨index, some 2⟩
        else if !isContinuation fourth then some ⟨index, some 3⟩
        else utf8Fault (index + 4) rest

/-- The UTF-8 bytes of a text. -/
def toUtf8 (text : String) : Bytes := text.toUTF8.data.toList

/-- The text whose UTF-8 bytes are given, or the first fault. -/
def ofUtf8 (bytes : Bytes) : Except Utf8Fault String :=
  match String.fromUTF8? ⟨bytes.toArray⟩ with
  | some text => .ok text
  | none => .error ((utf8Fault 0 bytes).getD ⟨bytes.length, none⟩)

end DataSquare.Text
