import DataSquare.Yaml.Tag

/-!
# Tokens of a document

The parts that a document is written with. Where indentation starts or ends a block, or a value
turns out to be a key, a token says so that is written nowhere.
-/
namespace DataSquare.Yaml

/-- How a scalar is written. -/
inductive Style where
  /-- Without quotes. -/
  | plain
  /-- As a block whose lines stay as they are. -/
  | literal
  /-- Between quotes, or as a block whose lines are folded. -/
  | other
deriving DecidableEq, Repr

/-- A part of a document. -/
inductive Token where
  /-- The version of the standard. -/
  | version (major minor : Nat)
  /-- What a handle of tags stands for. -/
  | handle (handle : TagHandle)
  /-- The mark that starts a document. -/
  | documentStart
  /-- The mark that ends a document. -/
  | documentEnd
  /-- The start of a list of items by indentation. -/
  | items
  /-- The start of a mapping by indentation. -/
  | entries
  /-- The end of what indentation started. -/
  | blockEnd
  /-- The bracket that opens a list. -/
  | openBracket
  /-- The bracket that closes a list. -/
  | closeBracket
  /-- The brace that opens a mapping. -/
  | openBrace
  /-- The brace that closes a mapping. -/
  | closeBrace
  /-- The hyphen in front of an item. -/
  | dash
  /-- A comma. -/
  | comma
  /-- The place in front of a key. -/
  | key
  /-- The colon in front of a value. -/
  | colon
  /-- A value under its name. -/
  | alias (name : String)
  /-- The name of the next value. -/
  | anchor (name : String)
  /-- The tag of the next value. -/
  | tag (tag : WrittenTag)
  /-- A scalar. -/
  | scalar (style : Style) (text : String)
deriving DecidableEq, Repr

end DataSquare.Yaml
