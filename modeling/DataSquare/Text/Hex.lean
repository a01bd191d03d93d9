import DataSquare.Bytes

/-!
# Hexadecimal text

Byte strings are shown with two lowercase digits a byte. Identifiers of a fixed width are shown
with `0x` in front, and in diagnostics with the name of what they identify around that. Main
statement: the digits of a byte string read back as the byte string.
-/
namespace DataSquare.Text

/-- The lowercase hexadecimal digit of a number below sixteen. -/
def hexDigit (value : Nat) : Char :=
  if value < 10 then Char.ofNat (48 + value) else Char.ofNat (87 + value)

/-- The digits of a byte string. -/
def hexDigits (bytes : Bytes) : List Char :=
  bytes.flatMap fun byte => [hexDigit (byte.toNat / 16), hexDigit (byte.toNat % 16)]

/-- A byte string in hexadecimal. -/
def hex (bytes : Bytes) : String := String.ofList (hexDigits bytes)

/-- The value of a lowercase hexadecimal digit. -/
def hexValue? (char : Char) : Option Nat :=
  if '0' ≤ char ∧ char ≤ '9' then some (char.toNat - 48)
  else if 'a' ≤ char ∧ char ≤ 'f' then some (char.toNat - 87)
  else none

/-- Reads digits on top of bytes already read, which are held last first. -/
def readHex (earlier : Bytes) : List Char → Option Bytes
  | [] => some earlier.reverse
  | [_] => none
  | high :: low :: rest =>
    match hexValue? high, hexValue? low with
    | some high, some low => readHex (UInt8.ofNat (high * 16 + low) :: earlier) rest
    | _, _ => none

/-- The byte string written by lowercase digits, two for each byte. -/
def ofHex? (text : String) : Option Bytes := readHex [] text.toList

/-- A byte string as an identifier. -/
def identifier (bytes : Bytes) : String := "0x" ++ hex bytes

/-- An identifier labelled with the kind of thing it identifies. -/
def labelled (label : String) (bytes : Bytes) : String :=
  label ++ "(" ++ identifier bytes ++ ")"

/-- A digit reads back as its value. -/
theorem hexValue?_hexDigit {value : Nat} (h : value < 16) :
    hexValue? (hexDigit value) = some value := by
  have hall : ∀ digit : Fin 16, hexValue? (hexDigit digit.val) = some digit.val := by decide
  exact hall ⟨value, h⟩

/-- Digits read back on top of earlier bytes. -/
theorem readHex_hexDigits (earlier bytes : Bytes) :
    readHex earlier (hexDigits bytes) = some (earlier.reverse ++ bytes) := by
  induction bytes generalizing earlier with
  | nil => simp [hexDigits, readHex]
  | cons byte rest ih =>
    have hbyte := byte.toNat_lt
    have hhigh : byte.toNat / 16 < 16 := by omega
    have hlow : byte.toNat % 16 < 16 := by omega
    have hvalue : byte.toNat / 16 * 16 + byte.toNat % 16 = byte.toNat := by omega
    have hrest := ih (byte :: earlier)
    simp only [hexDigits] at hrest
    simp [hexDigits, readHex, hexValue?_hexDigit hhigh, hexValue?_hexDigit hlow, hvalue, hrest]

/-- The digits of a byte string read back as the byte string. -/
theorem ofHex?_hex (bytes : Bytes) : ofHex? (hex bytes) = some bytes := by
  simp [ofHex?, hex, readHex_hexDigits]

end DataSquare.Text
