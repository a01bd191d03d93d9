import DataSquare.Text.Basic
import DataSquare.Text.Utf8
import DataSquare.Yaml.Place

/-!
# Tags and names

A tag is written in full between angle brackets, or as a handle with a suffix, where the document
may say what the handle stands for. Octets are written as percent signs with two digits, and one
that is zero ends the tag. A name of a value has letters, digits, hyphens and low lines. The readers
return what is left of the text. Main statement: unless the document says otherwise, two exclamation
marks stand for the tags of the standard.
-/
namespace DataSquare.Yaml

/-- Whether a name may have a character. -/
def isNameChar (char : Char) : Bool := char.isAlphanum || char = '-' || char = '_'

/-- Reads a name after its sign. It ends with a blank or certain signs. -/
def anchorName? (text : List Char) : Option (String × List Char) :=
  let name := text.takeWhile isNameChar
  let rest := text.drop name.length
  if name.isEmpty then none
  else if startsBlank rest || rest.head?.any
      (fun char => ['?', ':', ',', ']', '\x7d', '%', '@', '\x60'].contains char) then
    some (String.ofList name, rest)
  else none

/-- Whether a tag may have a character. In full tags commas and brackets may occur too. -/
def isTagChar (full : Bool) (char : Char) : Bool :=
  isNameChar char || ";/?:@&=+$.!~*'()%".toList.contains char ||
    (full && [',', '[', ']'].contains char)

/-- How many octets a character has whose first octet is given. -/
def octetCount? (octet : Nat) : Option Nat :=
  if octet < 0x80 then some 1
  else if octet < 0xc0 then none
  else if octet < 0xe0 then some 2
  else if octet < 0xf0 then some 3
  else if octet < 0xf8 then some 4
  else none

/-- Reads octets of a character, of which as many are missing. The octets in front of it and of it
are held last first. -/
def octets? (read : Bytes) : Nat → List Char → Option (Bytes × List Char)
  | 0, text => some (read, text)
  | missing + 1, '%' :: high :: low :: rest => do
    let octet ← Text.digits? 16 0 [high, low]
    if octet < 0x80 || 0xc0 ≤ octet then none
    else octets? (UInt8.ofNat octet :: read) missing rest
  | _ + 1, _ => none

/-- Reads the octets of a tag, given those in front, last first. The number of steps is bounded. -/
def tagOctets? (full : Bool) (read : Bytes) (fuel : Nat) (text : List Char) :
    Option (Bytes × List Char) :=
  match fuel, text with
  | 0, _ => none
  | _ + 1, [] => some (read.reverse, [])
  | fuel + 1, char :: rest =>
    if char = '%' then
      match rest with
      | high :: low :: rest => do
        let octet ← Text.digits? 16 0 [high, low]
        let (read, rest) ← octets? (UInt8.ofNat octet :: read) ((← octetCount? octet) - 1) rest
        tagOctets? full read fuel rest
      | _ => none
    else if isTagChar full char then tagOctets? full (UInt8.ofNat char.toNat :: read) fuel rest
    else some (read.reverse, char :: rest)

/-- Octets up to the first one that is zero. -/
def untilZero (octets : Bytes) : Bytes := octets.takeWhile (· ≠ 0)

/-- A tag as it is written. -/
structure WrittenTag where
  /-- The handle, which is empty for a tag in full. -/
  handle : String
  /-- The octets after it. -/
  suffix : Bytes
deriving DecidableEq, Repr

namespace WrittenTag

/-- Reads a tag after its exclamation mark. -/
def read? (fuel : Nat) (text : List Char) : Option (WrittenTag × List Char) :=
  match text with
  | '<' :: rest => do
    match ← tagOctets? true [] fuel rest with
    | ([], _) => none
    | (octets, '>' :: rest) => some (⟨"", untilZero octets⟩, rest)
    | _ => none
  | text =>
    let name := text.takeWhile isNameChar
    match text.drop name.length with
    | '!' :: rest => do
      match ← tagOctets? false [] fuel rest with
      | ([], _) => none
      | (octets, rest) => some (⟨String.ofList ('!' :: name ++ ['!']), untilZero octets⟩, rest)
    | _ => do
      let (octets, rest) ← tagOctets? false [] fuel text
      let suffix := untilZero octets
      if suffix.isEmpty then some (⟨"", [33]⟩, rest) else some (⟨"!", suffix⟩, rest)

end WrittenTag

/-- What a document says about a handle. -/
structure TagHandle where
  /-- The handle. -/
  handle : String
  /-- The octets that it stands for. -/
  start : Bytes
deriving DecidableEq, Repr

namespace TagHandle

/-- What handles stand for of which the document says nothing. -/
def standard : List TagHandle :=
  [⟨"!", Text.toUtf8 "!"⟩, ⟨"!!", Text.toUtf8 "tag:yaml.org,2002:"⟩]

/-- Reads a handle and what it stands for. -/
def read? (fuel : Nat) (text : List Char) : Option (TagHandle × List Char) :=
  match text with
  | '!' :: rest => do
    let name := rest.takeWhile isNameChar
    let (handle, rest) ← match name, rest.drop name.length with
      | name, '!' :: rest => some ('!' :: name ++ ['!'], rest)
      | [], rest => some (['!'], rest)
      | _, _ => none
    let start := rest.dropWhile isBlank
    if !rest.head?.any isBlank then none
    else
      match ← tagOctets? true [] fuel start with
      | ([], _) => none
      | (octets, rest) =>
        if startsBlank rest then some (⟨String.ofList handle, untilZero octets⟩, rest) else none
  | _ => none

/-- What a handle stands for, where some of them are given by the document. -/
def lookup? (handles : List TagHandle) (handle : String) : Option Bytes :=
  ((handles ++ standard).find? fun entry => entry.handle = handle).map TagHandle.start

/-- Of two exclamation marks the document need not say anything. -/
theorem lookup?_nil : lookup? [] "!!" = some (Text.toUtf8 "tag:yaml.org,2002:") := by
  simp [lookup?, standard]

end TagHandle

/-- The tag that is written, where some handles are given by the document. Octets that are no text
are a tag that means nothing. -/
def WrittenTag.resolve? (handles : List TagHandle) (tag : WrittenTag) : Option String := do
  let start ← if tag.handle.isEmpty then some [] else TagHandle.lookup? handles tag.handle
  some ((Text.ofUtf8 (start ++ tag.suffix)).toOption.getD "")

end DataSquare.Yaml
